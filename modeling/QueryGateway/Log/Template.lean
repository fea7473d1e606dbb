import QueryGateway.Number.Numeral
import QueryGateway.Value.Display
import QueryGateway.Value.Whole

/-!
Message templates: directives after a percent sign that stand for arguments, in order or by key. A
directive may have flags, a width and a precision. Its parts are settled from left to right, so the
first part that is wrong decides what is wrong with the template.
-/

set_option autoImplicit false
set_option relaxedAutoImplicit false

namespace QueryGateway.Log.Template

open QueryGateway.Number
open QueryGateway.Text

-- Powers are those of the core library, whatever else is in scope.
attribute [local instance (high)] instPowNat

/-- Why a template cannot be filled in. -/
inductive Problem
  | unsuitableArgument
  | malformedDirective
  | outOfRange
  | missingName
  | tooLarge
  | unwritable
  deriving DecidableEq, Repr

inductive Measure
  | none
  | fixed (n : Nat)
  | argument
  deriving DecidableEq, Repr

/-- The key of a directive, whose parentheses have to be balanced. -/
inductive Key
  | absent
  | unbalanced
  | named (name : String)
  deriving DecidableEq, Repr

/-- A directive; it has no conversion if the template ends within it. -/
structure Directive where
  key : Key := .absent
  flags : List Char := []
  width : Measure := .none
  precision : Measure := .none
  conversion : Option Char := none
  deriving Repr

inductive Piece
  | character (c : Char)
  | directive (d : Directive)
  deriving Repr

/-- A name in parentheses, which may hold further parentheses, and the rest. -/
def takeName (depth : Nat) (acc : List Char) : List Char → Key × List Char
  | [] => (.unbalanced, [])
  | c :: r =>
    if c = ')' then
      if depth = 0 then (.named (String.ofList acc.reverse), r)
      else takeName (depth - 1) (c :: acc) r
    else takeName (if c = '(' then depth + 1 else depth) (c :: acc) r

def takeKey : List Char → Key × List Char
  | '(' :: r => takeName 0 [] r
  | s => (.absent, s)

def isFlag (c : Char) : Bool := c == '-' || c == '+' || c == ' ' || c == '#' || c == '0'

def takeMeasure (s : List Char) : Measure × List Char :=
  match s with
  | '*' :: r => (.argument, r)
  | s =>
    let ds := s.takeWhile Char.isDigit
    (if ds.isEmpty then .none else .fixed (Numeral.valueOf ds), s.dropWhile Char.isDigit)

def takePrecision (s : List Char) : Measure × List Char :=
  match s with
  | '.' :: r =>
    let (m, r) := takeMeasure r
    (if m = .none then .fixed 0 else m, r)
  | s => (.none, s)

/-- What follows a letter that tells the size of a number. -/
def skipSize (s : List Char) : List Char :=
  match s with
  | c :: r => if c == 'h' || c == 'l' || c == 'L' then r else s
  | [] => []

/-- A directive after its percent sign, and the rest. -/
def takeDirective (s : List Char) : Directive × List Char :=
  let (key, r) := takeKey s
  let flags := r.takeWhile isFlag
  let (width, r) := takeMeasure (r.dropWhile isFlag)
  let (precision, r) := takePrecision r
  let r := skipSize r
  (⟨key, flags, width, precision, r.head?⟩, r.tail)

/-- The parts of a template, of which there are at most as many as characters. A percent sign right
after another one stands for itself. -/
def pieces : Nat → List Char → List Piece
  | 0, _ => []
  | _, [] => []
  | fuel + 1, '%' :: '%' :: r => .character '%' :: pieces fuel r
  | fuel + 1, '%' :: r =>
    let (d, rest) := takeDirective r
    .directive d :: pieces fuel rest
  | fuel + 1, c :: r => .character c :: pieces fuel r

/-- An argument as text, still without the blanks or zeros that make it as wide as asked for. Only
a number has a sign, and zeros between its sign and its digits. -/
structure Body where
  sign : List Char := []
  text : List Char
  isNumber : Bool := false

/-- Text widened to a width: to the left unless the flags say otherwise, with zeros after the sign
if they say so. -/
def widen (flags : List Char) (width : Nat) (b : Body) : List Char :=
  let missing := width - (b.sign.length + b.text.length)
  if flags.contains '-' then b.sign ++ b.text ++ List.replicate missing ' '
  else if b.isNumber && flags.contains '0' then b.sign ++ List.replicate missing '0' ++ b.text
  else List.replicate missing ' ' ++ b.sign ++ b.text

def signOf (flags : List Char) (negative : Bool) : List Char :=
  if negative then ['-'] else if flags.contains '+' then ['+'] else if flags.contains ' ' then [' ']
  else []

/-- The integer that a decimal counts as; one with far too many digits is not worked out. -/
def integerOfDecimal : Decimal → Except Problem Int
  | .nan _ _ _ => .error .malformedDirective
  | .infinite _ => .error .outOfRange
  | .finite s c e =>
    if c != 0 && (Numeral.maxDigits : Int) < e then .error .unwritable
    else .ok (((Decimal.finite s c e).truncate?).getD 0)

/-- The integer that an argument counts as in decimal. -/
def integerOf : Value → Except Problem Int
  | .int i => .ok i
  | .bool b => .ok (if b then 1 else 0)
  | .uuid s => .ok (Value.Whole.ofIdentifier s)
  | .float .nan => .error .malformedDirective
  | .float x => (x.truncate?.map Except.ok).getD (.error .outOfRange)
  | .decimal d => integerOfDecimal d
  | _ => .error .unsuitableArgument

def wholeOf : Value → Except Problem Int
  | .int i => .ok i
  | .bool b => .ok (if b then 1 else 0)
  | _ => .error .unsuitableArgument

/-- The floating-point number that an argument counts as. -/
def numberOf : Value → Except Problem Binary64
  | .int i =>
    let x := Binary64.ofInt i
    if x.isFinite then .ok x else .error .outOfRange
  | .bool b => .ok (Binary64.ofInt (if b then 1 else 0))
  | .float x => .ok x
  | .decimal d => (d.toBinary64?.map Except.ok).getD (.error .malformedDirective)
  | _ => .error .unsuitableArgument

/-- Capital letters in place of small ones. -/
def capitals (wanted : Bool) (s : List Char) : List Char := if wanted then s.map Char.toUpper else s

/-- The most characters that an argument may be widened to. -/
def maxWidth : Nat := 100000000

def maxIntegerPrecision : Nat := 2147483644

/-- An integer in some base, of a number of digits at least, after the mark of its base. -/
def integerText (flags : List Char) (conversion : Char) (precision : Nat) (i : Int) :
    Except Problem Body :=
  let base := if conversion == 'o' then 8 else if conversion == 'x' || conversion == 'X' then 16
    else 10
  if maxIntegerPrecision < precision then .error .outOfRange
  else if base == 10 && Numeral.isTooLong i then .error .unwritable
  else if maxWidth < precision then .error .tooLarge
  else
    let ds := Nat.toDigits base i.natAbs
    let ds := List.replicate (precision - ds.length) '0' ++ ds
    let mark :=
      if flags.contains '#' && base != 10 then ['0', if base = 8 then 'o' else 'x'] else []
    let upper := conversion == 'X'
    .ok ⟨signOf flags (i < 0) ++ capitals upper mark, capitals upper ds, true⟩

/-- The most digits that a floating-point number has; all further ones are zeros. -/
def maxPlaces : Nat := 1100

/-- A number with more zeros among its digits, in front of its exponent if it has one. -/
def withZeros (count : Nat) (s : List Char) : List Char :=
  s.takeWhile (· != 'e') ++ List.replicate count '0' ++ s.dropWhile (· != 'e')

/-- The digits of a quotient by a power of two. -/
def quotientText (keep : Bool) (conversion : Char) (precision num den : Nat) : List Char :=
  let places := min precision maxPlaces
  match conversion.toLower with
  | 'e' => withZeros (precision - places) (Rounded.scientific keep places num den)
  | 'g' =>
    withZeros (if keep then precision - places else 0) (Rounded.general keep places num den)
  | _ => withZeros (precision - places) (Rounded.fixed keep places num den)

def numberText (flags : List Char) (conversion : Char) (precision : Nat) (x : Binary64) :
    Except Problem Body :=
  if maxWidth < precision then .error .tooLarge
  else
    let (negative, body) := match x with
      | .nan => (false, "nan".toList)
      | .infinite s => (s, "inf".toList)
      | .finite s m e =>
        let (num, den) := if e < 0 then (m, 2 ^ (-e).toNat) else (m * 2 ^ e.toNat, 1)
        (s, quotientText (flags.contains '#') conversion precision num den)
    .ok ⟨signOf flags negative, capitals conversion.isUpper body, true⟩

def characterOf : Value → Except Problem Char
  | .int i => if 0 ≤ i && i < 0x110000 then .ok (Char.ofNat i.toNat) else .error .outOfRange
  | .bool b => .ok (Char.ofNat (if b then 1 else 0))
  | .text s =>
    match s.toList with
    | [c] => .ok c
    | _ => .error .unsuitableArgument
  | _ => .error .unsuitableArgument

/-- A text as far as there is one: what has none holds an integer that cannot be written. -/
def textOf (s : Option String) : Except Problem (List Char) :=
  (s.map fun s => Except.ok s.toList).getD (.error .unwritable)

/-- An argument as the text that a conversion asks for. -/
def convert (flags : List Char) (conversion : Char) (precision : Option Nat) (v : Value) :
    Except Problem Body :=
  let textual (s : List Char) : Body := { text := (precision.map s.take).getD s }
  match conversion with
  | 's' => (textOf (Value.Display.text? v)).map textual
  | 'r' => (textOf (Value.Display.quoted? v)).map textual
  | 'a' => (textOf (Value.Display.quoted? v)).map fun s => textual (Quoted.inAscii s)
  | 'c' => (characterOf v).map fun c => { text := [c] }
  | 'd' | 'i' | 'u' => (integerOf v).bind (integerText flags conversion (precision.getD 0))
  | 'o' | 'x' | 'X' => (wholeOf v).bind (integerText flags conversion (precision.getD 0))
  | 'e' | 'E' | 'f' | 'F' | 'g' | 'G' =>
    (numberOf v).bind (numberText flags conversion (precision.getD 6))
  | _ => .error .malformedDirective

/-- What a template is filled in with: the value that keys are looked up in, and the values that
are taken one after another. -/
structure Arguments where
  keyed : Option Value
  listed : List Value

def hasParts : Value → Bool
  | .object _ | .list _ | .bytes _ _ => true
  | _ => false

/-- The arguments that a value stands for: those it lists, or itself. -/
def Arguments.ofValue : Value → Arguments
  | .tuple vs => ⟨none, vs⟩
  | v => ⟨if hasParts v then some v else none, [v]⟩

def lookUp (keyed : Value) (name : String) : Except Problem Value :=
  match keyed with
  | .object fields => ((Fields.get? fields name).map Except.ok).getD (.error .missingName)
  | _ => .error .unsuitableArgument

/-- The values that a directive takes from: with a key it is the value of that key alone. -/
def sourceOf (keyed : Option Value) (key : Key) (values : List Value) :
    Except Problem (List Value) :=
  match key, keyed with
  | .absent, _ => .ok values
  | _, none => .error .unsuitableArgument
  | .unbalanced, some _ => .error .malformedDirective
  | .named name, some v => (lookUp v name).map fun w => [w]

def widthLimit : Nat := 9223372036854775807

def precisionLimit : Nat := 2147483647

/-- A measure within a limit, which may be the next of the values, and the values left. -/
def measure (limit : Nat) (m : Measure) (values : List Value) :
    Except Problem (Option Int × List Value) :=
  match m, values with
  | .none, vs => .ok (none, vs)
  | .fixed n, vs => if n ≤ limit then .ok (some n, vs) else .error .malformedDirective
  | .argument, [] => .error .unsuitableArgument
  | .argument, v :: vs => do
    let i ← wholeOf v
    if -(limit : Int) - 1 ≤ i ∧ i ≤ limit then return (some i, vs) else throw .outOfRange

/-- The flags of a directive with a width; a negative one goes to the left. -/
def flagsFor (flags : List Char) (width : Option Int) : List Char :=
  match width with
  | some i => if i < 0 then '-' :: flags else flags
  | none => flags

/-- The number of characters that a width asks for. The least width has no opposite and asks for
none. -/
def extent (width : Option Int) : Nat :=
  match width with
  | some i => if i.natAbs ≤ widthLimit then i.natAbs else 0
  | none => 0

def fill (keyed : Option Value) (d : Directive) (values : List Value) :
    Except Problem (List Char × List Value) := do
  let values ← sourceOf keyed d.key values
  let (width, values) ← measure widthLimit d.width values
  let (precision, values) ← measure precisionLimit d.precision values
  match d.conversion, values with
  | none, _ => throw .malformedDirective
  | some _, [] => throw .unsuitableArgument
  | some c, v :: rest =>
    let flags := flagsFor d.flags width
    let body ← convert flags c (precision.map Int.toNat) v
    if maxWidth < extent width then throw .tooLarge
    return (widen flags (extent width) body, rest)

def fillAll (keyed : Option Value) : List Piece → List Value →
    Except Problem (List Char × List Value)
  | [], values => .ok ([], values)
  | .character c :: ps, values => (fillAll keyed ps values).map fun p => (c :: p.1, p.2)
  | .directive d :: ps, values => do
    let (t, values) ← fill keyed d values
    let (rest, values) ← fillAll keyed ps values
    return (t ++ rest, values)

/-- A template filled in with the arguments that a value stands for, all of which have to be taken
unless keys can be looked up in it. -/
def format (template : String) (arguments : Value) : Except Problem String := do
  let s := template.toList
  let given := Arguments.ofValue arguments
  let (t, left) ← fillAll given.keyed (pieces s.length s) given.listed
  if left.isEmpty || given.keyed.isSome then return String.ofList t else throw .unsuitableArgument

end QueryGateway.Log.Template
