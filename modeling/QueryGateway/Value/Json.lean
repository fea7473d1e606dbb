import QueryGateway.Text.Octets
import QueryGateway.Value.Calendar
import QueryGateway.Value.Display

/-!
Values as JSON: what they are made before they are written, and the text.
-/

set_option autoImplicit false
set_option relaxedAutoImplicit false

/-!
## Portable values

Values that a JSON document can carry. Dates and decimals become text, durations become seconds,
bytes become the text they encode or base 64, and tuples become lists. Keys and items keep their
order and number.
-/

namespace QueryGateway.Value

open QueryGateway.Text

def textOfBytes (content : List UInt8) : String :=
  String.ofList ((Utf8.decode? content).getD (Base64.encode content))

mutual

/-- A value with everything replaced that JSON has no kind for. -/
def portable : Value → Value
  | .decimal d => .text (String.ofList d.text)
  | .bytes _ content => .text (textOfBytes content)
  | .uuid s => .text s
  | .day d => .text (String.ofList (Calendar.dayText d))
  | .clock c => .text (String.ofList (Calendar.clockText c))
  | .moment d c o => .text (String.ofList (Calendar.momentText 'T' d c o))
  | .duration u => .float (Calendar.durationSeconds u)
  | .list xs => .list (portableItems xs)
  | .tuple xs => .list (portableItems xs)
  | .object es => .object (portableEntries es)
  | .null => .null
  | .bool b => .bool b
  | .int i => .int i
  | .float x => .float x
  | .text s => .text s

def portableItems : List Value → List Value
  | [] => []
  | x :: xs => portable x :: portableItems xs

def portableEntries : List (String × Value) → List (String × Value)
  | [] => []
  | (k, v) :: es => (k, portable v) :: portableEntries es

end

end QueryGateway.Value

/-!
## Text

Values as JSON text in ASCII. A compact document separates by a comma and a blank; an indented one
puts every item on a line of its own. Kinds that JSON lacks are written as their text.
-/

namespace QueryGateway.Value.Json

open QueryGateway.Number
open QueryGateway.Text

def units (n : Nat) : List Char :=
  if n < 0x10000 then '\\' :: 'u' :: Hexadecimal.fixed 4 n
  else
    let m := n - 0x10000
    '\\' :: 'u' :: Hexadecimal.fixed 4 (0xd800 + m / 1024) ++
      '\\' :: 'u' :: Hexadecimal.fixed 4 (0xdc00 + m % 1024)

def escapeChar (c : Char) : List Char :=
  if c == '"' || c == '\\' then ['\\', c]
  else if c == '\n' then ['\\', 'n']
  else if c == '\r' then ['\\', 'r']
  else if c == '\t' then ['\\', 't']
  else if c.toNat = 8 then ['\\', 'b']
  else if c.toNat = 12 then ['\\', 'f']
  else if 32 ≤ c.toNat && c.toNat ≤ 126 then [c]
  else units c.toNat

def string (s : List Char) : List Char := '"' :: s.flatMap escapeChar ++ ['"']

/-- A number with a fraction or an exponent, or one of the three words that stand for none. -/
def number : Binary64 → List Char
  | .nan => "NaN".toList
  | .infinite s => if s then "-Infinity".toList else "Infinity".toList
  | x => Shortest.text x

/-- How the parts of a container are set apart. -/
inductive Layout
  | compact
  | indented (depth : Nat)

namespace Layout

def inner : Layout → Layout
  | .compact => .compact
  | .indented d => .indented (d + 1)

def lineBreak : Layout → List Char
  | .compact => []
  | .indented d => '\n' :: List.replicate (2 * d) ' '

def between : Layout → List Char
  | .compact => [',', ' ']
  | .indented d => ',' :: lineBreak (.indented d)

end Layout

/-- Parts between brackets, none of which leaves the brackets alone. -/
def container (layout : Layout) (opening closing : Char) (parts : List (List Char)) : List Char :=
  if parts.isEmpty then [opening, closing]
  else
    opening :: layout.inner.lineBreak ++ (parts.intersperse layout.inner.between).flatten ++
      layout.lineBreak ++ [closing]

mutual

def chars (layout : Layout) : Value → List Char
  | .null => "null".toList
  | .bool b => if b then "true".toList else "false".toList
  | .int i => Numeral.ofInt i
  | .float x => number x
  | .text s => string s.toList
  | .list xs => container layout '[' ']' (items layout.inner xs)
  | .tuple xs => container layout '[' ']' (items layout.inner xs)
  | .object es => container layout (Char.ofNat 123) (Char.ofNat 125) (entries layout.inner es)
  | v => string (Display.chars v)

def items (layout : Layout) : List Value → List (List Char)
  | [] => []
  | x :: xs => chars layout x :: items layout xs

def entries (layout : Layout) : List (String × Value) → List (List Char)
  | [] => []
  | (k, v) :: es => (string k.toList ++ ':' :: ' ' :: chars layout v) :: entries layout es

end

def compact? (v : Value) : Option String :=
  if v.isWritable then some (String.ofList (chars .compact v)) else none

/-- A portable value written with one part to a line, if it can be written. -/
def text? (v : Value) : Option String :=
  if v.isWritable then some (String.ofList (chars (.indented 0) v)) else none

/-- A value made portable and written with one part to a line, if it can be written. -/
def document? (v : Value) : Option String := text? v.portable

end QueryGateway.Value.Json
