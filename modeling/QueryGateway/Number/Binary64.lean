/-!
Floating-point numbers of 64 bits as sign, mantissa and binary exponent. Every operation is exact
arithmetic on naturals followed by one rounding to the nearest value, a tie going to the even
mantissa.
-/

set_option autoImplicit false
set_option relaxedAutoImplicit false

namespace QueryGateway.Number

-- Powers are those of the core library, whatever else is in scope.
attribute [local instance (high)] instPowNat

/-- A number that 64 bits hold: no number, an infinity, or a mantissa times a power of two. -/
inductive Binary64
  | nan
  | infinite (negative : Bool)
  | finite (negative : Bool) (mantissa : Nat) (exponent : Int)
  deriving DecidableEq, Repr, Inhabited

namespace Binary64

def leastExponent : Int := -1074

def greatestExponent : Int := 971

def zero : Binary64 := .finite false 0 leastExponent

/-- A quotient rounded to the nearest natural number, a tie to the even one. -/
def roundQuotient (num den : Nat) : Nat :=
  let q := num / den
  let r := num % den
  if 2 * r < den then q else if den < 2 * r then q + 1 else if q % 2 = 0 then q else q + 1

/-- A quotient in units of a power of two, as numerator and denominator. -/
def scale (num den : Nat) (e : Int) : Nat × Nat :=
  if e < 0 then (num * 2 ^ (-e).toNat, den) else (num, den * 2 ^ e.toNat)

/-- The value nearest to a quotient of naturals with a sign. -/
def ofRatio (negative : Bool) (num den : Nat) : Binary64 :=
  if num = 0 then .finite negative 0 leastExponent
  else
    let logarithm : Int := (num.log2 : Int) - den.log2
    let unit := scale num den (logarithm - 52)
    let e := if unit.1 < unit.2 * 2 ^ (52 : Nat) then logarithm - 53 else logarithm - 52
    let e := max e leastExponent
    let s := scale num den e
    let m := roundQuotient s.1 s.2
    let (m, e) := if m = 2 ^ (53 : Nat) then (2 ^ (52 : Nat), e + 1) else (m, e)
    if greatestExponent < e then .infinite negative else .finite negative m e

def ofInt (i : Int) : Binary64 := ofRatio (i < 0) i.natAbs 1

def isFinite : Binary64 → Bool
  | .finite _ _ _ => true
  | _ => false

/-- Whether a value is a zero of either sign. -/
def isZero : Binary64 → Bool
  | .finite _ 0 _ => true
  | _ => false

def mul : Binary64 → Binary64 → Binary64
  | .nan, _ | _, .nan => .nan
  | .infinite s, .infinite t => .infinite (s != t)
  | .infinite s, .finite t m _ => if m = 0 then .nan else .infinite (s != t)
  | .finite s m _, .infinite t => if m = 0 then .nan else .infinite (s != t)
  | .finite s m e, .finite t n f =>
    let g := e + f
    if g < 0 then ofRatio (s != t) (m * n) (2 ^ (-g).toNat)
    else ofRatio (s != t) (m * n * 2 ^ g.toNat) 1

/-- A multiple by an integer that is taken as the nearest value. -/
def times (x : Binary64) (n : Int) : Binary64 := x.mul (ofInt n)

/-- A mantissa with its sign, in units of a lower exponent than its own. -/
def units (negative : Bool) (m : Nat) (e low : Int) : Int :=
  let n : Int := m * 2 ^ (e - low).toNat
  if negative then -n else n

def add : Binary64 → Binary64 → Binary64
  | .nan, _ | _, .nan => .nan
  | .infinite s, .infinite t => if s = t then .infinite s else .nan
  | .infinite s, .finite _ _ _ | .finite _ _ _, .infinite s => .infinite s
  | .finite s m e, .finite t n f =>
    let low := min e f
    let sum := units s m e low + units t n f low
    let negative := if sum = 0 then s && t else sum < 0
    if low < 0 then ofRatio negative sum.natAbs (2 ^ (-low).toNat)
    else ofRatio negative (sum.natAbs * 2 ^ low.toNat) 1

/-- The numerator and the denominator of a finite value. -/
def ratio? : Binary64 → Option (Int × Nat)
  | .finite s m e =>
    let (n, d) := if e < 0 then (m, 2 ^ (-e).toNat) else (m * 2 ^ e.toNat, 1)
    some (if s then -(n : Int) else n, d)
  | _ => none

/-- The integer part toward zero of a finite value. -/
def truncate? (x : Binary64) : Option Int := x.ratio?.map fun r => Int.tdiv r.1 r.2

/-- The integer that a finite value without a fraction is. -/
def integer? (x : Binary64) : Option Int :=
  x.ratio?.bind fun r => if r.1 % (r.2 : Int) = 0 then some (r.1 / (r.2 : Int)) else none

/-- How a value compares with an integer; no number compares with nothing. -/
def compareInt? : Binary64 → Int → Option Ordering
  | .nan, _ => none
  | .infinite s, _ => some (if s then .lt else .gt)
  | x, i => x.ratio?.map fun r => compare r.1 (i * r.2)

end Binary64

end QueryGateway.Number
