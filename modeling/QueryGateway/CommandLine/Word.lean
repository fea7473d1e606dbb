import QueryGateway.Text.Classes
import QueryGateway.Text.Parts

/-!
Words of the command line: options, the mark after which nothing is an option, and everything else.
The name of a long option may be cut short as long as only one option begins that way.
-/

set_option autoImplicit false
set_option relaxedAutoImplicit false

namespace QueryGateway.CommandLine

open QueryGateway.Text

inductive Flag
  | help | verbose | version
  deriving DecidableEq, Repr

namespace Flag

def long : List (List Char × Flag) :=
  [("--help".toList, .help), ("--verbose".toList, .verbose), ("--version".toList, .version)]

def short : List (Char × Flag) := [('h', .help), ('v', .verbose)]

def ofLetter? (c : Char) : Option Flag := (short.find? fun p => p.1 == c).map (·.2)

end Flag

/-- A word of the command line. A long option may come with a text that belongs to it, and a short
one with more characters. -/
inductive Word
  | long (flag : Flag) (given : Option (List Char))
  | short (flag : Flag) (more : List Char)
  | unknown
  | ending
  | plain (text : List Char)
  deriving DecidableEq, Repr

namespace Word

def withoutBreak (s : List Char) : List Char :=
  if s.getLast? = some '\n' then s.dropLast else s

/-- Whether a text is a number: digits, or a point with digits after it. -/
def isNumeral (s : List Char) : Bool :=
  (!s.isEmpty && s.all Digit.isDecimal) ||
    match Split.cutFirst? '.' s with
    | some (whole, fraction) =>
      whole.all Digit.isDecimal && !fraction.isEmpty && fraction.all Digit.isDecimal
    | none => false

/-- What a word that begins with a dash is if no option fits it. -/
def unfitting (s : List Char) : Word :=
  if isNumeral (withoutBreak (s.drop 1)) || s.contains ' ' then .plain s else .unknown

/-- The long option that a name, perhaps cut short, stands for; nothing if it stands for several. -/
def ofLongName (s name : List Char) (given : Option (List Char)) : Option Word :=
  match Flag.long.find? fun p => p.1 == name with
  | some p => some (.long p.2 given)
  | none =>
    match Flag.long.filter fun p => name.isPrefixOf p.1 with
    | [] => some (unfitting s)
    | [p] => some (.long p.2 given)
    | _ => none

/-- A word that begins with two dashes. -/
def ofLong (s : List Char) : Option Word :=
  match Split.cutFirst? '=' s with
  | some (name, given) => ofLongName s name (some given)
  | none => ofLongName s s none

/-- What comes after a letter, without an equals sign right after it that something follows. -/
def afterEquals : List Char → List Char
  | '=' :: c :: r => c :: r
  | s => s

/-- A word that begins with one dash and a letter, with what comes after the letter. -/
def ofShort (s : List Char) (letter : Char) (more : List Char) : Word :=
  match Flag.ofLetter? letter with
  | none => unfitting s
  | some flag => .short flag (afterEquals more)

/-- A word, unless it is the name of a long option cut too short. -/
def ofChars (s : List Char) : Option Word :=
  match s with
  | ['-', '-'] => some .ending
  | '-' :: '-' :: _ => ofLong s
  | '-' :: letter :: rest => some (ofShort s letter rest)
  | _ => some (.plain s)

/-- The words of a command line, unless one is cut too short. After the mark that ends the options,
every word is plain. -/
def ofLine : List (List Char) → Option (List Word)
  | [] => some []
  | s :: rest =>
    match ofChars s with
    | none => none
    | some .ending => some (.ending :: rest.map .plain)
    | some w => (ofLine rest).map (w :: ·)

end Word

end QueryGateway.CommandLine
