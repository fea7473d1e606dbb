import QueryGateway.Number.Reading
import QueryGateway.Text.Classes

/-!
Decimal numbers that keep their trailing zeros: a coefficient and a power of ten. The text is
positional unless that would pad the coefficient with zeros on the right or with more than five
on the left.
-/

set_option autoImplicit false
set_option relaxedAutoImplicit false

namespace QueryGateway.Number

open QueryGateway.Text

-- Powers are those of the core library, whatever else is in scope.
attribute [local instance (high)] instPowNat

/-- A decimal number, an infinity or no number with its diagnostic digits. -/
inductive Decimal
  | finite (negative : Bool) (coefficient : Nat) (exponent : Int)
  | infinite (negative : Bool)
  | nan (negative signalling : Bool) (digits : List Char)
  deriving DecidableEq, Repr, Inhabited

namespace Decimal

/-- Diagnostic digits without the zeros in front. -/
def payload (ds : List Char) : List Char := ds.dropWhile (· == '0')

def asciiDigit (c : Char) : Char := (Digit.value? c).elim c fun d => Char.ofNat (48 + d)

/-- The decimal that a text denotes, white space around it and underscores left out. -/
def ofText? (s : List Char) : Option Decimal :=
  let (negative, body) := Reading.sign (((Blank.trim s).filter (· != '_')).map asciiDigit)
  let word := String.ofList (body.map Char.toLower)
  if word == "inf" || word == "infinity" then some (.infinite negative)
  else if word.startsWith "nan" then some (.nan negative false (payload (body.drop 3)))
  else if word.startsWith "snan" then some (.nan negative true (payload (body.drop 4)))
  else (Reading.decimal? body).map fun p => .finite negative (Numeral.valueOf p.1) p.2

def text : Decimal → List Char
  | .nan s q ds =>
    (if s then ['-'] else []) ++ (if q then "sNaN".toList else "NaN".toList) ++ ds
  | .infinite s => (if s then ['-'] else []) ++ "Infinity".toList
  | .finite s c e =>
    let ds := Numeral.digits c
    let left : Int := e + ds.length
    let point : Int := if e ≤ 0 && -6 < left then left else 1
    let body :=
      if point ≤ 0 then '0' :: '.' :: List.replicate (-point).toNat '0' ++ ds
      else if (ds.length : Int) ≤ point then ds ++ List.replicate (point - ds.length).toNat '0'
      else ds.take point.toNat ++ '.' :: ds.drop point.toNat
    let power :=
      if left = point then []
      else 'E' :: (if left < point then '-' else '+') :: Numeral.digits (left - point).natAbs
    (if s then ['-'] else []) ++ body ++ power

def ofInt (i : Int) : Decimal := .finite (i < 0) i.natAbs 0

/-- A floating-point number as a decimal: halves are fives in units of a tenth. -/
def ofBinary64 : Binary64 → Decimal
  | .nan => .nan false false []
  | .infinite s => .infinite s
  | .finite s m e =>
    if e < 0 then .finite s (m * 5 ^ (-e).toNat) e else .finite s (m * 2 ^ e.toNat) 0

/-- The one form of all decimals that are equal: no zeros at the end of the coefficient, and no sign
and no exponent for a zero. -/
def normal : Decimal → Decimal
  | .finite s c e =>
    let zeros := ((Numeral.digits c).reverse.takeWhile (· == '0')).length
    if c = 0 then .finite false 0 0 else .finite s (c / 10 ^ zeros) (e + zeros)
  | d => d

/-- Whether two decimals are equal; what is no number equals nothing. -/
def isEqual (d e : Decimal) : Bool :=
  match d, e with
  | .nan _ _ _, _ | _, .nan _ _ _ => false
  | d, e => d.normal == e.normal

def isZero : Decimal → Bool
  | .finite _ c _ => c == 0
  | _ => false

def ratio? : Decimal → Option (Int × Nat)
  | .finite s c e =>
    let (n, d) := if e < 0 then (c, 10 ^ (-e).toNat) else (c * 10 ^ e.toNat, 1)
    some (if s then -(n : Int) else n, d)
  | _ => none

/-- The integer part toward zero of a finite decimal, which is zero if no digit stands before its
point. -/
def truncate? : Decimal → Option Int
  | .finite s c e =>
    let n :=
      if 0 ≤ e then c * 10 ^ e.toNat
      else if (Numeral.digits c).length ≤ (-e).toNat then 0
      else c / 10 ^ (-e).toNat
    some (if s then -(n : Int) else n)
  | _ => none

def integer? (x : Decimal) : Option Int :=
  x.ratio?.bind fun r => if r.1 % (r.2 : Int) = 0 then some (r.1 / (r.2 : Int)) else none

/-- The nearest floating-point number; a signalling value has none. -/
def toBinary64? : Decimal → Option Binary64
  | .finite s c e => some (Reading.ofDigits s (Numeral.digits c) e)
  | .infinite s => some (.infinite s)
  | .nan _ q _ => if q then none else some .nan

end Decimal

end QueryGateway.Number
