import QueryGateway.Number.Decimal.Arithmetic
import QueryGateway.Value.Calendar
import QueryGateway.Value.Whole

/-!
Sums and multiples of values.
-/

set_option autoImplicit false
set_option relaxedAutoImplicit false

/-!
## Sums

Sums of values. Truth values count as integers. Integers are added exactly; beside a floating-point
number or a decimal an integer becomes one, and those two kinds do not mix.
-/

namespace QueryGateway.Value

open QueryGateway.Number

def counted : Value → Value
  | .bool b => .int (if b then 1 else 0)
  | v => v

/-- An integer as a floating-point number, if it is not too large for one. -/
def floatOfInt (i : Int) : Except Failure Binary64 :=
  let x := Binary64.ofInt i
  if x.isFinite then .ok x
  else .error (Whole.failure .tooLarge "int too large to convert to float")

def signalFailure : Decimal.Signal → Failure
  | .undefined => Whole.failure .undefined "[<class 'decimal.InvalidOperation'>]"
  | .overflow => Whole.failure .overflow "[<class 'decimal.Overflow'>]"

def ofDecimalResult (r : Except Decimal.Signal Decimal) : Except Failure Value :=
  match r with
  | .ok d => .ok (.decimal d)
  | .error s => .error (signalFailure s)

def unsupported (operation : String) (v w : Value) : Failure :=
  Whole.failure .unsuitableKind
    ("unsupported operand type(s) for " ++ operation ++ ": '" ++ v.fullKindName ++ "' and '" ++
      w.fullKindName ++ "'")

def plus (v w : Value) : Except Failure Value :=
  match v.counted, w.counted with
  | .int i, .int j => .ok (.int (i + j))
  | .int i, .float y => (floatOfInt i).map fun x => .float (x.add y)
  | .float x, .int j => (floatOfInt j).map fun y => .float (x.add y)
  | .float x, .float y => .ok (.float (x.add y))
  | .int i, .decimal e => ofDecimalResult ((Decimal.ofInt i).add e)
  | .decimal d, .int j => ofDecimalResult (d.add (Decimal.ofInt j))
  | .decimal d, .decimal e => ofDecimalResult (d.add e)
  | _, _ => .error (unsupported "+" v w)

end QueryGateway.Value

/-!
## Multiples

Multiples of values. A number or a duration is multiplied; a text, bytes, a list or a tuple is
repeated, which leaves nothing of it if the factor is not positive.
-/

namespace QueryGateway.Value

open QueryGateway.Number

def maxFactor : Int := 9223372036854775807

/-- The most parts that a repetition may have for lack of memory. -/
def maxParts : Int := 100000000

/-- The failure of a repetition with too many parts: a fixed text is known to be too long before
memory runs out. -/
def repetitionFailure (isFixed : Bool) (parts : Int) : Failure :=
  if isFixed && maxFactor < parts then Whole.failure .tooLarge "repeated string is too long"
  else Whole.failure .outOfMemory ""

def repeated {α : Type} (isFixed : Bool) (parts : List α) (n : Int) : Except Failure (List α) :=
  if n < -maxFactor - 1 ∨ maxFactor < n then
    .error (Whole.failure .tooLarge "cannot fit 'int' into an index-sized integer")
  else if parts.isEmpty || n ≤ 0 then .ok []
  else if maxParts < parts.length * n then
    .error (repetitionFailure isFixed (parts.length * n))
  else .ok (List.replicate n.toNat parts).flatten

/-- The most days that a duration may have in either direction. -/
def maxDays : Nat := 999999999

def durationTimes (microseconds n : Int) : Except Failure Value :=
  let u := microseconds * n
  if maxDays < (Int.fdiv u Calendar.dayLength).natAbs then
    .error (Whole.failure .tooLarge "days are out of range")
  else .ok (.duration u)

def times (v : Value) (n : Int) : Except Failure Value :=
  match v.counted with
  | .int i => .ok (.int (i * n))
  | .float x => (floatOfInt n).map fun y => .float (x.mul y)
  | .decimal d => ofDecimalResult (d.mul (Decimal.ofInt n))
  | .duration u => durationTimes u n
  | .text s => (repeated true s.toList n).map fun cs => .text (String.ofList cs)
  | .bytes .fixed b => (repeated true b n).map fun bs => .bytes .fixed bs
  | .bytes .growable b => (repeated false b n).map fun bs => .bytes .growable bs
  | .list vs => (repeated false vs n).map .list
  | .tuple vs => (repeated false vs n).map .tuple
  | _ => .error (unsupported "*" v (.int n))

end QueryGateway.Value
