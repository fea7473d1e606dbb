import QueryGateway.Input.Checked
import QueryGateway.Number.Reading
import QueryGateway.Text.Octets

/-!
Lenient readings of single values: a number may come as text, a truth value as a word, a text as
bytes, as long as nothing is lost.
-/

set_option autoImplicit false
set_option relaxedAutoImplicit false

namespace QueryGateway.Input.Coercion

open QueryGateway.Number
open QueryGateway.Text

/-- The text of bytes that do not change, from which anything can be read that a text may stand
for. -/
def fixedText? : Value → Option (Option (List Char))
  | .bytes .fixed b => some (Utf8.decode? b)
  | _ => none

/-- The text of bytes that drivers hand out whole, of which some can only be read as a text. -/
def bytesText? : Value → Option (Option (List Char))
  | .bytes .growable b => some (Utf8.decode? b)
  | v => fixedText? v

def text (v : Value) : Checked String :=
  match v with
  | .text s => .good s
  | v =>
    match bytesText? v with
    | some (some s) => .good (String.ofList s)
    | some none =>
      .refuse "Input should be a valid string, unable to parse raw data as a unicode string"
    | none => .refuse "Input should be a valid string"

def integerOfText (s : List Char) : Checked Int :=
  match Reading.whole s with
  | .read i => .good i
  | .malformed => .refuse "Input should be a valid integer, unable to parse string as an integer"
  | .tooLong => .refuse "Unable to parse input string as an integer, exceeded maximum size"

/-- An integer from the parts of a number: whether it is finite and the integer that it equals. -/
def integerOfNumber (finite : Bool) (i : Option Int) : Checked Int :=
  if !finite then .refuse "Input should be a finite number"
  else
    match i with
    | some i => .good i
    | none => .refuse "Input should be a valid integer, got a number with a fractional part"

def isMachineInt (i : Int) : Bool := -9223372036854775808 ≤ i && i < 9223372036854775808

/-- Integers that a floating-point number may stand for: those of 64 bits apart from the least. -/
def isFloatInt (i : Int) : Bool := -9223372036854775808 < i && i < 9223372036854775808

/-- An integer. A floating-point number has to stay within 64 bits. -/
def integer (v : Value) : Checked Int :=
  match v with
  | .int i => .good i
  | .bool b => .good (if b then 1 else 0)
  | .text s => integerOfText s.toList
  | .float x =>
    (integerOfNumber x.isFinite x.integer?).andThen fun i =>
      if isFloatInt i then .good i
      else .refuse "Unable to parse input string as an integer, exceeded maximum size"
  | .decimal d => integerOfNumber d.ratio?.isSome d.integer?
  | v =>
    match fixedText? v with
    | some (some s) => integerOfText s
    | some none =>
      .refuse "Input should be a valid integer, unable to parse string as an integer"
    | none => .refuse "Input should be a valid integer"

def trueWords : List String := ["1", "on", "t", "true", "y", "yes"]

def falseWords : List String := ["0", "off", "f", "false", "n", "no"]

/-- A value that is of a suitable kind, but neither true nor false. -/
def noTruth : Checked Bool :=
  .refuse "Input should be a valid boolean, unable to interpret input"

def notTruthKind : Checked Bool := .refuse "Input should be a valid boolean"

/-- A truth value written as a word in any letter case. -/
def truthOfText (s : List Char) : Checked Bool :=
  let word := String.ofList (s.map Char.toLower)
  if trueWords.contains word then .good true
  else if falseWords.contains word then .good false
  else noTruth

/-- A truth value as an integer, which has to belong to a class of integers. -/
def truthOfInteger (isSuitable : Int → Bool) (i : Int) : Checked Bool :=
  if i = 0 then .good false
  else if i = 1 then .good true
  else if isSuitable i then noTruth
  else notTruthKind

/-- A truth value as a floating-point number that equals an integer. -/
def truthOfNumber (x : Binary64) : Checked Bool :=
  (x.integer?.map (truthOfInteger isFloatInt)).getD notTruthKind

def truth (v : Value) : Checked Bool :=
  match v with
  | .bool b => .good b
  | .text s => truthOfText s.toList
  | .int i => truthOfInteger isMachineInt i
  | .float x => truthOfNumber x
  | .decimal d => (d.toBinary64?.map truthOfNumber).getD notTruthKind
  | v =>
    match fixedText? v with
    | some (some s) => truthOfText s
    | some none => noTruth
    | none => notTruthKind

def numberOfText (s : List Char) : Checked Binary64 :=
  match Reading.lenientFloat? s with
  | some x => .good x
  | none => .refuse "Input should be a valid number, unable to parse string as a number"

def number (v : Value) : Checked Binary64 :=
  let unsuitable : Checked Binary64 := .refuse "Input should be a valid number"
  match v with
  | .float x => .good x
  | .int i =>
    let x := Binary64.ofInt i
    if x.isFinite then .good x else unsuitable
  | .bool b => .good (Binary64.ofInt (if b then 1 else 0))
  | .text s => numberOfText s.toList
  | .decimal d => (d.toBinary64?.map Checked.good).getD unsuitable
  | v =>
    match fixedText? v with
    | some (some s) => numberOfText s
    | some none =>
      .refuse "Input should be a valid number, unable to parse string as a number"
    | none => unsuitable

def list (v : Value) : Checked (List Value) :=
  match v with
  | .list vs => .good vs
  | .tuple vs => .good vs
  | _ => .refuse "Input should be a valid list"

/-- A list of which every item is read in the same way. -/
def listOf {α : Type} (read : Value → Checked α) (v : Value) : Checked (List α) :=
  (list v).andThen (Checked.items read 0)

def object (v : Value) : Checked Fields :=
  match v with
  | .object fields => .good fields
  | _ => .refuse "Input should be a valid dictionary"

def objectOf (kind : String) (v : Value) : Checked Fields :=
  match v with
  | .object fields => .good fields
  | _ => .refuse ("Input should be a valid dictionary or instance of " ++ kind)

def optional {α : Type} (read : Value → Checked α) (v : Value) : Checked (Option α) :=
  match v with
  | .null => .good none
  | v => some <$> read v

/-- A truth value, a number or a text. Values of these kinds are kept; another value becomes the
first of them that it can be read as, a decimal a floating-point number. -/
def scalar (v : Value) : Checked Value :=
  match v with
  | .bool _ | .int _ | .float _ | .text _ => .good v
  | v =>
    let asTruth := (truth v).within "bool"
    let asInteger := (integer v).within "int"
    let asNumber := (number v).within "float"
    let asText := (text v).within "str"
    let float? := match v with
      | .decimal _ => asNumber.value?
      | _ => none
    match float?, asTruth, asInteger, asNumber, asText with
    | some x, _, _, _, _ => .good (.float x)
    | _, .good b, _, _, _ => .good (.bool b)
    | _, _, .good i, _, _ => .good (.int i)
    | _, _, _, .good x, _ => .good (.float x)
    | _, _, _, _, .good s => .good (.text s)
    | _, .bad a, .bad b, .bad c, .bad d => .bad (a ++ b ++ c ++ d)

def lookUp? (names : List String) (fields : Fields) : Option (String × Value) :=
  names.findSome? fun n => (fields.get? n).map fun v => (n, v)

def required {α : Type} (names : List String) (read : Value → Checked α) (fields : Fields) :
    Checked α :=
  match lookUp? names fields with
  | some (n, v) => (read v).within n
  | none => (Checked.refuse "Field required").within (names.headD "")

def withDefault {α : Type} (default : α) (names : List String) (read : Value → Checked α)
    (fields : Fields) : Checked α :=
  match lookUp? names fields with
  | some (n, v) => (read v).within n
  | none => .good default

end QueryGateway.Input.Coercion
