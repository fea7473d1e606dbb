import QueryGateway.Number.Decimal

/-!
Sums and products of decimals. A result is worked out exactly and then made to fit: it keeps at most
twenty-eight digits, a tie going to the even digit, and its exponent stays within limits.
-/

set_option autoImplicit false
set_option relaxedAutoImplicit false

namespace QueryGateway.Number.Decimal

-- Powers are those of the core library, whatever else is in scope.
attribute [local instance (high)] instPowNat

/-- Why two decimals have no result. -/
inductive Signal
  | undefined | overflow
  deriving DecidableEq, Repr

def precision : Nat := 28

def greatestExponent : Int := 999999

/-- The least exponent that the first digit of a result has before digits get lost. -/
def leastExponent : Int := -999999

def leastUnit : Int := leastExponent - 27

def size (c : Nat) : Nat := (Numeral.digits c).length

/-- A coefficient without its last digits, rounded, a tie going to the even digit. -/
def shortened (c n : Nat) : Nat :=
  if size c < n then 0 else Binary64.roundQuotient c (10 ^ n)

/-- A coefficient and an exponent as a decimal that has at most as many digits as a result may. A
coefficient that grows a digit by rounding ends in a zero, which is left out. -/
def keepDigits (negative : Bool) (c : Nat) (e : Int) : Except Signal Decimal :=
  let n := size c - precision
  let q := shortened c n
  if n = 0 then .ok (.finite negative c e)
  else if q < 10 ^ precision then .ok (.finite negative q (e + n))
  else if greatestExponent < e + n + precision then .error .overflow
  else .ok (.finite negative (q / 10) (e + n + 1))

def fit (negative : Bool) (c : Nat) (e : Int) : Except Signal Decimal :=
  let first := e + size c - 1
  if greatestExponent < first then
    if c = 0 then .ok (.finite negative 0 greatestExponent) else .error .overflow
  else if first < leastExponent ∧ e < leastUnit then
    .ok (.finite negative (shortened c (leastUnit - e).toNat) leastUnit)
  else keepDigits negative c e

/-- What an operand that is no number makes of a result: a signalling one has none, another one is
passed on with the last of its diagnostic digits. -/
def passOn (negative signalling : Bool) (digits : List Char) : Except Signal Decimal :=
  if signalling then .error .undefined
  else .ok (.nan negative false (payload (digits.drop (digits.length - precision))))

def signed (negative : Bool) (c : Nat) : Int := if negative then -(c : Int) else c

/-- The operand with the smaller exponent as it counts beside another one. What lies below every
digit of the result is as good as a one right there. -/
def besides (c : Nat) (e : Int) (d : Nat) (f : Int) : Nat × Int :=
  let limit := e - 1 + (if precision < size c then 0 else (size c : Int) - precision - 1)
  if f + size d - 1 < limit then (min d 1, limit) else (d, f)

/-- The sum of two finite decimals, the second of which has no greater exponent. -/
def addAligned (s : Bool) (c : Nat) (e : Int) (t : Bool) (d : Nat) (f : Int) :
    Except Signal Decimal :=
  let (d, f) := if c = 0 then (d, f) else besides c e d f
  let sum := signed s (if c = 0 then 0 else c * 10 ^ (e - f).toNat) + signed t d
  fit (if sum = 0 then s && t else sum < 0) sum.natAbs f

def add : Decimal → Decimal → Except Signal Decimal
  | .nan _ true _, _ | _, .nan _ true _ => .error .undefined
  | .nan s q ds, _ | _, .nan s q ds => passOn s q ds
  | .infinite s, .infinite t => if s = t then .ok (.infinite s) else .error .undefined
  | .infinite s, _ | _, .infinite s => .ok (.infinite s)
  | .finite s c e, .finite t d f =>
    if f ≤ e then addAligned s c e t d f else addAligned t d f s c e

def mul : Decimal → Decimal → Except Signal Decimal
  | .nan _ true _, _ | _, .nan _ true _ => .error .undefined
  | .nan s q ds, _ | _, .nan s q ds => passOn s q ds
  | .infinite s, .infinite t => .ok (.infinite (s != t))
  | .infinite s, .finite t c _ | .finite t c _, .infinite s =>
    if c = 0 then .error .undefined else .ok (.infinite (s != t))
  | .finite s c e, .finite t d f => fit (s != t) (c * d) (e + f)

end QueryGateway.Number.Decimal
