import QueryGateway.Number.Numeral
import QueryGateway.Text.Quoted
import QueryGateway.Value.Calendar

/-!
The text of a value, as messages and details show it. A text is shown as it is, but quoted inside
a list or an object, where dates and decimals show the call that builds them. An integer is written
only up to a number of digits, so a value that holds a longer one has no text.
-/

set_option autoImplicit false
set_option relaxedAutoImplicit false

namespace QueryGateway.Value

open QueryGateway.Number

mutual

/-- Whether a value can be written: no integer in it has too many digits. -/
def isWritable : Value → Bool
  | .int i => !Numeral.isTooLong i
  | .list vs | .tuple vs => areWritable vs
  | .object es => areWritableEntries es
  | _ => true

def areWritable : List Value → Bool
  | [] => true
  | v :: vs => v.isWritable && areWritable vs

def areWritableEntries : List (String × Value) → Bool
  | [] => true
  | (_, v) :: es => v.isWritable && areWritableEntries es

end

namespace Display

open QueryGateway.Text

def commaList (pieces : List (List Char)) : List Char := (pieces.intersperse [',', ' ']).flatten

mutual

def nested : Value → List Char
  | .null => "None".toList
  | .bool b => if b then "True".toList else "False".toList
  | .int i => Numeral.ofInt i
  | .float x => Shortest.text x
  | .text s => Quoted.ofText s.toList
  | .decimal d => Calendar.call "Decimal" [Quoted.ofText d.text]
  | .bytes .fixed b => Quoted.ofBytes b
  | .bytes .growable b => Calendar.call "bytearray" [Quoted.ofGrowableBytes b]
  | .bytes .view _ => "<memory>".toList
  | .uuid s => Calendar.call "UUID" [Quoted.ofText s.toList]
  | .day d => Calendar.dayCall d
  | .clock c => Calendar.clockCall c
  | .moment d c o => Calendar.momentCall d c o
  | .duration u => Calendar.durationCall u
  | .list xs => '[' :: commaList (nestedItems xs) ++ [']']
  | .tuple [x] => '(' :: nested x ++ [',', ')']
  | .tuple xs => '(' :: commaList (nestedItems xs) ++ [')']
  | .object es => Char.ofNat 123 :: commaList (nestedEntries es) ++ [Char.ofNat 125]

def nestedItems : List Value → List (List Char)
  | [] => []
  | x :: xs => nested x :: nestedItems xs

def nestedEntries : List (String × Value) → List (List Char)
  | [] => []
  | (k, v) :: es => (Quoted.ofText k.toList ++ ':' :: ' ' :: nested v) :: nestedEntries es

end

def chars : Value → List Char
  | .text s => s.toList
  | .decimal d => d.text
  | .uuid s => s.toList
  | .day d => Calendar.dayText d
  | .clock c => Calendar.clockText c
  | .moment d c o => Calendar.momentText ' ' d c o
  | .duration u => Calendar.durationText u
  | v => nested v

def text? (v : Value) : Option String :=
  if v.isWritable then some (String.ofList (chars v)) else none

def quoted? (v : Value) : Option String :=
  if v.isWritable then some (String.ofList (nested v)) else none

end Display

end QueryGateway.Value
