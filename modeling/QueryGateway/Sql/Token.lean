import QueryGateway.Failure
import QueryGateway.Text.Classes
import QueryGateway.Text.LetterCase
import QueryGateway.Text.Parts

/-!
Tokens of statements, and the placeholders among them.
-/

set_option autoImplicit false
set_option relaxedAutoImplicit false

/-!
## Tokens

The tokens of MySQL text. A text is cut into lexemes from left to right, each of the longest form
that its first characters admit; white space and comments are lexemes too, so nothing is lost. Text
with an unfinished quotation or comment has no lexemes. What a command word introduces is not looked
at: `Token.visible` leaves out everything between such a word and the next semicolon.
-/

namespace QueryGateway.Sql.Token

open QueryGateway.Text
open QueryGateway.Text.Blank (isBlank)

/-- What a lexeme is, as far as parameter marks are concerned. -/
inductive Kind
  | gap | mark | semicolon | variable | command | opening | other
  deriving DecidableEq, Repr

structure Lexeme where
  kind : Kind
  start : Nat
  deriving DecidableEq, Repr

/-- Marks that stand for themselves and end a word. -/
def punctuation : List Char :=
  ['(', ')', '[', ']', '\x7b', '\x7d', '&', '^', ':', ',', '.', '-', '=', '>', '<', '%', '!', '|',
   '+', ';', '/', '\\', '*', '~', '?', '@', '#', '\'', '"', '`']

def isWordChar (c : Char) : Bool := !isBlank c && !punctuation.contains c

/-- How many characters at the start of a text belong to a word. -/
def wordLength (s : List Char) : Nat := (s.takeWhile isWordChar).length

/-- How many characters are left of a quoted text, its closing mark included. A backslash keeps
the next character, and either quotation mark written twice stands for itself. -/
def stringLength? (quote : Char) : List Char → Option Nat
  | [] => none
  | [c] => if c = quote then some 1 else none
  | c :: d :: r =>
    if c = '\\' || ((c = '\'' || c = '"') && d = c) then (stringLength? quote r).map (· + 2)
    else if c = quote then some 1
    else (stringLength? quote (d :: r)).map (· + 1)

/-- How many characters are left of a name in backticks, its closing mark included. -/
def nameLength? : List Char → Option Nat
  | [] => none
  | [c] => if c = '`' then some 1 else none
  | c :: d :: r =>
    if c = '`' then (if d = '`' then (nameLength? r).map (· + 2) else some 1)
    else (nameLength? (d :: r)).map (· + 1)

/-- How many characters are left of a comment up to and including its two closing characters. -/
def commentLength? (first second : Char) : List Char → Option Nat
  | [] => none
  | [_] => none
  | c :: d :: r =>
    if c = first && d = second then some 2
    else (commentLength? first second (d :: r)).map (· + 1)

def lineLength (s : List Char) : Nat := (s.takeWhile (· != '\n')).length

/-- How many characters of a number follow, given whether it may have a point still and how far
its exponent has come: none, its letter, its sign. -/
def numberLength (point : Bool) (exponent : Nat) : List Char → Nat
  | [] => 0
  | c :: r =>
    if c.isDigit then numberLength point exponent r + 1
    else if c = '.' && point then numberLength false exponent r + 1
    else if (c = '-' || c = '+') && exponent = 1 then
      if r.head?.any Char.isDigit then numberLength point 2 r + 1 else 0
    else if (c = 'e' || c = 'E') && exponent = 0 then numberLength point 1 r + 1
    else wordLength (c :: r)

/-- Characters that mean something after a backslash other than themselves. -/
def escaped : List Char := ['0', 'b', 'n', 'r', 't', 'Z', '%', '_']

def escape? (d : Char) : Option Char :=
  if d = 'n' then some '\n'
  else if d = 't' then some '\t'
  else if d = 'r' then some '\r'
  else if escaped.contains d then none
  else some d

/-- The content of a quoted text with its escapes resolved. -/
def unescape : List Char → List Char
  | [] => []
  | [c] => [c]
  | c :: d :: r =>
    if c = '\\' then
      match escape? d with
      | some e => e :: unescape r
      | none => c :: d :: unescape r
    else c :: unescape (d :: r)

def isDigits (base : Nat) : List Char → Bool
  | [] => false
  | [c] => isDigit c
  | c :: '_' :: r => isDigit c && isDigits base r
  | c :: r => isDigit c && isDigits base r
where
  /-- Whether a character is a digit below the base. -/
  isDigit (c : Char) : Bool :=
    match Digit.value? c with
    | some n => n < base
    | none => base = 16 && (('a' ≤ c && c ≤ 'f') || ('A' ≤ c && c ≤ 'F'))

/-- Whether the content of a bit or hexadecimal literal is a number: nothing, or digits with white
space around them, a sign, and the letter of the base after a zero. -/
def isNumeral (base : Nat) (letter : Char) (content : List Char) : Bool :=
  let s := Blank.strip Blank.isSpace content
  let s := match s with
    | '+' :: r => r
    | '-' :: r => r
    | _ => s
  let bare := match s with
    | z :: l :: r =>
      if Digit.value? z == some 0 && l.toLower == letter then
        match r with
        | '_' :: r => r
        | _ => r
      else s
    | _ => s
  content.isEmpty || isDigits base bare

def commandWords : List String :=
  ["CALL", "EXECUTE", "FETCH", "OPTIMIZE", "PREPARE", "RENAME", "REPLACE", "VACUUM"]

def openingWords : List String := ["BEGIN", "START"]

def isOneOf (words : List String) (word : List Char) : Bool :=
  let w := LetterCase.upper word
  words.any fun k => k.toList == w

def wordKind (word : List Char) : Kind :=
  if isOneOf commandWords word then .command
  else if isOneOf openingWords word then .opening
  else .other

def isPlainly (capitals : String) (word : List Char) : Bool :=
  word.map Char.toUpper == capitals.toList

/-- What a word and the text after it are together: table locks are commands of two words. -/
def wordLexeme (word rest : List Char) : Kind × Nat :=
  let blanks := rest.takeWhile isBlank
  let second := (rest.dropWhile isBlank).takeWhile isWordChar
  if (isPlainly "LOCK" word || isPlainly "UNLOCK" word) && !blanks.isEmpty &&
      isPlainly "TABLES" second then
    (.command, word.length + blanks.length + second.length)
  else (wordKind word, word.length)

def stringLexeme? (quote : Char) (r : List Char) : Option (Kind × Nat) :=
  (stringLength? quote r).map fun n => (.other, n)

/-- A literal of digits in quotes, as a lexeme after its opening mark. -/
def numeralLexeme? (base : Nat) (letter : Char) (r : List Char) : Option (Kind × Nat) :=
  (stringLength? '\'' r).bind fun n =>
    if isNumeral base letter (unescape (r.take (n - 1))) then some (.other, n) else none

/-- Adds a character in front of a lexeme. -/
def longer (l : Option (Kind × Nat)) : Option (Kind × Nat) := l.map fun p => (p.1, p.2 + 1)

/-- A character after which two dashes begin a comment, or the end of the text. -/
def endsDashes (s : List Char) : Bool :=
  match s with
  | [] => true
  | c :: _ => isBlank c || c.toNat < 32 || c.toNat = 127

/-- How many characters follow the first one of a mark without letters. Only the marks that hold
another mark which would mean something by itself matter: those that open a block of a template,
and the operator of adjacency. -/
def markLength : Char → List Char → Nat
  | '\x7b', '%' :: '-' :: _ | '\x7b', '%' :: '+' :: _ => 2
  | '\x7b', '\x7b' :: '-' :: _ | '\x7b', '\x7b' :: '+' :: _ => 2
  | '-', '|' :: '-' :: _ => 2
  | _, _ => 0

/-- The kind of the first lexeme of a text and how many characters follow its first one. A number
right after the sign of a variable has no point. -/
def lexeme? (afterVariable : Bool) (c : Char) (r : List Char) : Option (Kind × Nat) :=
  if isBlank c then some (.gap, 0)
  else if c = '0' && (r.head? == some 'b' || r.head? == some 'B' || r.head? == some 'x' ||
      r.head? == some 'X') then some (.other, wordLength r)
  else if c.isDigit then some (.other, numberLength (!afterVariable) 0 r)
  else
    match c, r with
    | '`', _ => (nameLength? r).map fun n => (.other, n)
    | '\'', _ => stringLexeme? '\'' r
    | '"', _ => stringLexeme? '"' r
    | 'n', '\'' :: t | 'N', '\'' :: t => longer (stringLexeme? '\'' t)
    | 'n', '"' :: t | 'N', '"' :: t => longer (stringLexeme? '"' t)
    | 'b', '\'' :: t | 'B', '\'' :: t => longer (numeralLexeme? 2 'b' t)
    | 'x', '\'' :: t | 'X', '\'' :: t => longer (numeralLexeme? 16 'x' t)
    | '/', '*' :: t => (commentLength? '*' '/' t).map fun n => (.gap, n + 1)
    | '\x7b', '#' :: t => (commentLength? '#' '\x7d' t).map fun n => (.gap, n + 1)
    | '-', '-' :: t => if endsDashes t then some (.gap, lineLength t + 1) else some (.other, 0)
    | '#', '>' :: _ => some (.other, 1)
    | '#', _ => some (.gap, lineLength r)
    | '?', '?' :: _ => some (.other, 1)
    | '?', ':' :: ':' :: _ => some (.other, 2)
    | '?', _ => some (.mark, 0)
    | ';', _ => some (.semicolon, 0)
    | '@', '@' :: _ => some (.other, 1)
    | '@', _ => some (.variable, 0)
    | _, _ =>
      if isWordChar c then
        let l := wordLexeme (c :: r.takeWhile isWordChar) (r.dropWhile isWordChar)
        some (l.1, l.2 - 1)
      else some (.other, markLength c r)

/-- The lexemes of a text that starts at a place, perhaps after the sign of a variable. -/
def lexemesFrom? (start : Nat) (afterVariable : Bool) : List Char → Option (List Lexeme)
  | [] => some []
  | c :: r =>
    match lexeme? afterVariable c r with
    | none => none
    | some (kind, more) =>
      (lexemesFrom? (start + more + 1)
        (if kind = .gap then afterVariable else kind = .variable) (r.drop more)).map
          fun ls => ⟨kind, start⟩ :: ls
termination_by s => s.length
decreasing_by simp only [List.length_drop, List.length_cons]; omega

/-- The lexemes of a text that are neither white space nor comments. -/
def tokens? (s : List Char) : Option (List Lexeme) :=
  (lexemesFrom? 0 false s).map fun ls => ls.filter fun l => l.kind != .gap

/-- The tokens that are not part of a command. A command word counts where a statement starts, and
no word counts right after the sign of a variable. -/
def visibleAfter (previous : Option Kind) (within : Bool) : List Lexeme → List Lexeme
  | [] => []
  | l :: ls =>
    let kind := if previous == some .variable && (l.kind == .command || l.kind == .opening)
      then .other else l.kind
    if within && kind != .semicolon then visibleAfter previous true ls
    else
      let starts := previous == none || previous == some .semicolon || previous == some .opening
      ⟨kind, l.start⟩ :: visibleAfter (some kind) (kind == .command && starts) ls

/-- The tokens of a text that are not part of a command. -/
def visible? (s : List Char) : Option (List Lexeme) :=
  (tokens? s).map fun ls => visibleAfter none false ls

end QueryGateway.Sql.Token

/-!
## Placeholders

Parameter marks in statement text, and the text that a driver of some parameter style expects.
-/

namespace QueryGateway.Sql.Placeholder

open QueryGateway.Sql.Token (Lexeme)

/-- The places of the marks among tokens. -/
def placesOf (ls : List Lexeme) : List Nat :=
  (ls.filter fun l => l.kind == .mark).map (·.start)

/-- The places of the marks in a text, or a refusal of text that has no tokens. -/
def positions (s : List Char) : Except Failure (List Nat) :=
  match Token.visible? s with
  | some ls => .ok (placesOf ls)
  | none =>
    .error (Failure.invalid "Query could not be tokenized" "query" .null .validation
      (some "Check for unterminated quotes or identifiers"))

def count (s : List Char) : Except Failure Nat := (positions s).map List.length

inductive Style
  | question
  | percent
  deriving DecidableEq, Repr

def Style.ofName? (name : String) : Option Style :=
  if name == "qmark" then some .question
  else if name == "format" || name == "pyformat" then some .percent
  else none

/-- Text with the marks at some places turned into percent directives and every other percent sign
doubled, from a place on. -/
def percentFrom (places : List Nat) (start : Nat) : List Char → List Char
  | [] => []
  | c :: r =>
    (if places.contains start then ['%', 's'] else if c = '%' then ['%', '%'] else [c]) ++
      percentFrom places (start + 1) r

/-- The text that a driver of a style expects. -/
def renderFor (style : Style) (s : List Char) : Except Failure (List Char) :=
  match style with
  | .question => .ok s
  | .percent => (positions s).map fun places => percentFrom places 0 s

/-- The text that a driver of a named style expects, or a refusal of the style. -/
def render (styleName : String) (s : List Char) : Except Failure (List Char) :=
  match Style.ofName? styleName with
  | some style => renderFor style s
  | none =>
    .error (.ofFault
      { Fault.ofClass .configuration ("Unsupported driver paramstyle: " ++ styleName) with
        code := .configurationInvalid })

end QueryGateway.Sql.Placeholder
