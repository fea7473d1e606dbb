import QueryGateway.Text.Classes

/-!
Texts taken apart: white space, pieces between marks, and runs of characters of one kind.
-/

set_option autoImplicit false
set_option relaxedAutoImplicit false

/-!
## White space

White space: the characters of that Unicode property and the four information separators.
-/

namespace QueryGateway.Text.Blank

def isBlank (c : Char) : Bool :=
  let n := c.toNat
  (9 ≤ n && n ≤ 13) || (28 ≤ n && n ≤ 32) || n == 0x85 || n == 0xa0 || n == 0x1680 ||
    (0x2000 ≤ n && n ≤ 0x200a) || n == 0x2028 || n == 0x2029 || n == 0x202f || n == 0x205f ||
    n == 0x3000

/-- White space without the information separators, as number fields are trimmed. -/
def isSpace (c : Char) : Bool := isBlank c && !(28 ≤ c.toNat && c.toNat ≤ 31)

/-- A text without the characters of a class at either end. -/
def strip (p : Char → Bool) (s : List Char) : List Char :=
  ((s.dropWhile p).reverse.dropWhile p).reverse

/-- A text without white space at either end. -/
def trim (s : List Char) : List Char := strip isBlank s

/-- What follows the white space at the start. -/
def dropBlanks (s : List Char) : List Char := s.dropWhile isBlank

/-- What follows the white space at the start, of which there has to be some. -/
def afterBlanks? : List Char → Option (List Char)
  | [] => none
  | c :: r => if isBlank c then some (dropBlanks r) else none

/-- The words of a text: its longest pieces without white space. -/
def words : List Char → List (List Char)
  | [] => []
  | c :: r =>
    if isBlank c then words r
    else
      match r with
      | [] => [[c]]
      | d :: _ =>
        if isBlank d then [c] :: words r
        else
          match words r with
          | w :: ws => (c :: w) :: ws
          | [] => [[c]]

end QueryGateway.Text.Blank

/-!
## Pieces

Cutting a text at a character. `splitOn` gives one piece more than the text holds separators, and
joining the pieces by the separator gives the text back.
-/

namespace QueryGateway.Text.Split

def splitOn (sep : Char) : List Char → List (List Char)
  | [] => [[]]
  | c :: r =>
    if c = sep then [] :: splitOn sep r
    else
      match splitOn sep r with
      | p :: ps => (c :: p) :: ps
      | [] => [[c]]

def joinWith (sep : List Char) : List (List Char) → List Char
  | [] => []
  | [p] => p
  | p :: q :: ps => p ++ sep ++ joinWith sep (q :: ps)

def cutFirst? (sep : Char) : List Char → Option (List Char × List Char)
  | [] => none
  | c :: r => if c = sep then some ([], r) else (cutFirst? sep r).map fun p => (c :: p.1, p.2)

def cutLast? (sep : Char) : List Char → Option (List Char × List Char)
  | [] => none
  | c :: r =>
    match cutLast? sep r with
    | some p => some (c :: p.1, p.2)
    | none => if c = sep then some ([], r) else none

def occursIn (needle : List Char) : List Char → Bool
  | [] => needle.isEmpty
  | c :: r => needle.isPrefixOf (c :: r) || occursIn needle r

def replaceFirst (old new : List Char) : List Char → List Char
  | [] => if old.isEmpty then new else []
  | c :: r =>
    if old.isPrefixOf (c :: r) then new ++ (c :: r).drop old.length
    else c :: replaceFirst old new r

/-- Whether a test holds of some suffix of a text, the whole text and the empty one included. -/
def anySuffix (p : List Char → Bool) : List Char → Bool
  | [] => p []
  | c :: r => p (c :: r) || anySuffix p r

end QueryGateway.Text.Split

/-!
## Runs

A text as its longest runs of white space, of word characters and of anything else. A keyword
stands as a whole word exactly where a word run is that keyword.
-/

namespace QueryGateway.Text.Runs

open QueryGateway.Text.Blank (isBlank)
open QueryGateway.Text.Word (isWord)

inductive Kind
  | blank | word | other
  deriving DecidableEq, Repr

def kindOf (c : Char) : Kind :=
  if isBlank c then .blank else if isWord c then .word else .other

structure Run where
  kind : Kind
  text : List Char
  deriving DecidableEq, Repr

def ofText : List Char → List Run
  | [] => []
  | c :: rest =>
    match ofText rest with
    | [] => [⟨kindOf c, [c]⟩]
    | r :: rs =>
      if r.kind = kindOf c then ⟨r.kind, c :: r.text⟩ :: rs else ⟨kindOf c, [c]⟩ :: r :: rs

end QueryGateway.Text.Runs
