import QueryGateway.Number.Reading
import QueryGateway.Text.Octets
import QueryGateway.Value

/-!
JSON texts read as values. Of entries with the same key the last one counts, at the place of the
first. Reading takes only what the grammar of JSON admits, and white space around it.
-/

set_option autoImplicit false
set_option relaxedAutoImplicit false

namespace QueryGateway.Value.Json

open QueryGateway.Number
open QueryGateway.Text

/-- White space between the parts of a text. -/
def isBlank (c : Char) : Bool := c == ' ' || c == '\n' || c == '\r' || c == '\t'

/-- A text without white space in front. -/
def skipBlank (s : List Char) : List Char := s.dropWhile isBlank

def after? (word : String) (s : List Char) : Option (List Char) :=
  if word.toList.isPrefixOf s then some (s.drop word.length) else none

def unit? : List Char → Option Nat
  | [a, b, c, d] => do
    let a ← Hexadecimal.value? a
    let b ← Hexadecimal.value? b
    let c ← Hexadecimal.value? c
    let d ← Hexadecimal.value? d
    return ((a * 16 + b) * 16 + c) * 16 + d
  | _ => none

def letterEscape? : Char → Option Char
  | '"' => some '"'
  | '\\' => some '\\'
  | '/' => some '/'
  | 'b' => some (Char.ofNat 8)
  | 'f' => some (Char.ofNat 12)
  | 'n' => some '\n'
  | 'r' => some '\r'
  | 't' => some '\t'
  | _ => none

/-- The character that two units of UTF-16 make up. -/
def paired? (high low : Nat) : Option Char :=
  if 0xd800 ≤ high && high < 0xdc00 && 0xdc00 ≤ low && low < 0xe000 then
    some (Char.ofNat (0x10000 + (high - 0xd800) * 1024 + (low - 0xdc00)))
  else none

/-- The character that stands for half of a pair without the other half. -/
def replacement : Char := Char.ofNat 0xfffd

/-- The character that an escape by UTF-16 units stands for, and how many characters of the text
after the mark of the escape it takes. -/
def unitEscape? (s : List Char) : Option (Char × Nat) :=
  (unit? (s.take 4)).map fun n =>
    match (s.drop 4).take 2, (unit? ((s.drop 6).take 4)).bind (paired? n) with
    | ['\\', 'u'], some c => (c, 10)
    | _, _ => if 0xd800 ≤ n && n < 0xe000 then (replacement, 4) else (Char.ofNat n, 4)

/-- The characters of a string up to its closing quote, and the rest of the text. A number of
characters is passed over first. -/
def characters : Nat → List Char → Option (List Char × List Char)
  | n + 1, _ :: r => characters n r
  | _, [] => none
  | 0, '"' :: r => some ([], r)
  | 0, '\\' :: 'u' :: r => do
    let (c, n) ← unitEscape? r
    let (cs, rest) ← characters n r
    return (c :: cs, rest)
  | 0, '\\' :: e :: r => do
    let c ← letterEscape? e
    let (cs, rest) ← characters 0 r
    return (c :: cs, rest)
  | 0, c :: r =>
    if c.toNat < 32 then none
    else (characters 0 r).map fun p => (c :: p.1, p.2)

def isNumberChar (c : Char) : Bool :=
  c.isDigit || c == '-' || c == '+' || c == '.' || c == 'e' || c == 'E'

def wholePart? (ds : List Char) : Option (List Char) :=
  match ds with
  | [] => none
  | ['0'] => some ds
  | '0' :: _ => none
  | _ => some ds

/-- Whether a text is a fraction and an exponent, either of which may be missing. -/
def isTail (s : List Char) : Bool :=
  let afterPoint := match s with
    | '.' :: r => if (r.head?.map Char.isDigit).getD false then r.dropWhile Char.isDigit else ['.']
    | s => s
  match afterPoint with
  | [] => true
  | c :: r =>
    (c == 'e' || c == 'E') &&
      let ds := match r with
        | '+' :: ds => ds
        | '-' :: ds => ds
        | ds => ds
      !ds.isEmpty && ds.all Char.isDigit

def number? (s : List Char) : Option Value :=
  let (negative, body) := match s with
    | '-' :: r => (true, r)
    | r => (false, r)
  (wholePart? (body.takeWhile Char.isDigit)).bind fun ds =>
    match body.dropWhile Char.isDigit with
    | [] =>
      let n : Int := Numeral.valueOf ds
      some (.int (if negative then -n else n))
    | tail => if isTail tail then (Reading.float? s).map .float else none

mutual

def take? : Nat → List Char → Option (Value × List Char)
  | 0, _ => none
  | depth + 1, s =>
    match skipBlank s with
    | '"' :: r => (characters 0 r).map fun p => (.text (String.ofList p.1), p.2)
    | '[' :: r =>
      match skipBlank r with
      | ']' :: rest => some (.list [], rest)
      | _ => (takeItems? depth r).map fun p => (.list p.1, p.2)
    | '\x7b' :: r =>
      match skipBlank r with
      | '\x7d' :: rest => some (.object [], rest)
      | _ => (takeEntries? depth r).map fun p => (.object (Fields.update [] p.1), p.2)
    | 'n' :: r => (after? "ull" r).map fun rest => (.null, rest)
    | 't' :: r => (after? "rue" r).map fun rest => (.bool true, rest)
    | 'f' :: r => (after? "alse" r).map fun rest => (.bool false, rest)
    | s => (number? (s.takeWhile isNumberChar)).map fun v => (v, s.dropWhile isNumberChar)

/-- The items of a list up to its closing bracket, and the rest of the text. -/
def takeItems? : Nat → List Char → Option (List Value × List Char)
  | 0, _ => none
  | depth + 1, s => do
    let (v, r) ← take? depth s
    match skipBlank r with
    | ',' :: r => do
      let (vs, rest) ← takeItems? depth r
      return (v :: vs, rest)
    | ']' :: rest => return ([v], rest)
    | _ => none

/-- The entries of an object up to its closing brace, and the rest of the text. -/
def takeEntries? : Nat → List Char → Option (List (String × Value) × List Char)
  | 0, _ => none
  | depth + 1, s => do
    let r ← after? "\"" (skipBlank s)
    let (key, r) ← characters 0 r
    let r ← after? ":" (skipBlank r)
    let (v, r) ← take? depth r
    let entry := (String.ofList key, v)
    match skipBlank r with
    | ',' :: r => do
      let (es, rest) ← takeEntries? depth r
      return (entry :: es, rest)
    | '\x7d' :: rest => return ([entry], rest)
    | _ => none

end

def read? (s : List Char) : Option Value :=
  (take? (s.length + 1) s).bind fun p => if (skipBlank p.2).isEmpty then some p.1 else none

end QueryGateway.Value.Json
