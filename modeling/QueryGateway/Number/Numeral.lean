import QueryGateway.Number.Binary64

/-!
Numbers as text: integers, the shortest digits of floating-point numbers, and rounded ones.
-/

set_option autoImplicit false
set_option relaxedAutoImplicit false

/-!
## Integers

Digits of natural numbers in ASCII, and integers in decimal.
-/

namespace QueryGateway.Number.Numeral

-- Powers are those of the core library, whatever else is in scope.
attribute [local instance (high)] instPowNat

def digits (n : Nat) : List Char := Nat.toDigits 10 n

/-- An integer in decimal, with a minus sign if it is negative. -/
def ofInt (i : Int) : List Char := if i < 0 then '-' :: digits i.natAbs else digits i.natAbs

/-- The most digits that an integer may be written with, or read from. -/
def maxDigits : Nat := 4300

@[irreducible] def isTooLong (i : Int) : Bool := 10 ^ maxDigits ≤ i.natAbs

def padded (width n : Nat) : List Char :=
  let ds := digits n
  List.replicate (width - ds.length) '0' ++ ds

def valueOf (ds : List Char) : Nat := ds.foldl (fun n c => n * 10 + (c.toNat - 48)) 0

/-- The number that a text of ASCII digits denotes. -/
def nat? (s : List Char) : Option Nat :=
  if s.isEmpty || !s.all Char.isDigit then none else some (valueOf s)

end QueryGateway.Number.Numeral

/-!
## Shortest digits

The shortest decimal text that reads back as a given floating-point number. A number of digits
fixes a decimal grid; the first grid with a point in the interval of reals that round to the value
wins, and of its two points next to the value the nearer one, on a tie the even one.
-/

namespace QueryGateway.Number.Shortest

open QueryGateway.Number

-- Powers are those of the core library, whatever else is in scope.
attribute [local instance (high)] instPowNat

/-- The decimal exponent of a positive quotient below one, counted down from zero. -/
def exponentBelowOne (num den : Nat) : Nat → Nat → Int
  | 0, k => -(k : Int)
  | fuel + 1, k => if den ≤ num * 10 ^ k then -(k : Int) else exponentBelowOne num den fuel (k + 1)

/-- The exponent of the leading decimal digit of a positive quotient. -/
def leadingExponent (num den : Nat) : Int :=
  if den ≤ num then ((Numeral.digits (num / den)).length : Int) - 1
  else exponentBelowOne num den 400 1

/-- The digits of a positive value and the exponent of the last one: counts from one up are tried
in turn. The value is four times a quarter of its unit, so that both halves of the rounding
interval are whole numbers of quarters. -/
def search (low mid high : Nat × Nat) (closed : Bool) (lead : Int) : Nat → Nat → Nat × Int
  | 0, n => (mid.1 * 10 ^ (n - 1) / mid.2, lead - (n - 1))
  | fuel + 1, n =>
    let last := lead - (n - 1)
    let grid (q : Nat × Nat) : Nat × Nat :=
      if last < 0 then (q.1 * 10 ^ (-last).toNat, q.2) else (q.1, q.2 * 10 ^ last.toNat)
    let lo := grid low
    let v := grid mid
    let hi := grid high
    let within (d : Nat) : Bool :=
      if closed then lo.1 ≤ d * lo.2 && d * hi.2 ≤ hi.1 else lo.1 < d * lo.2 && d * hi.2 < hi.1
    let d := v.1 / v.2
    let r := v.1 % v.2
    match within d, within (d + 1) with
    | true, true =>
      let up := if 2 * r = v.2 then d % 2 = 1 else v.2 < 2 * r
      (if up then d + 1 else d, last)
    | true, false => (d, last)
    | false, true => (d + 1, last)
    | false, false => search low mid high closed lead fuel (n + 1)

/-- The shortest digits of a positive mantissa and exponent, with the exponent of the last. -/
def digitsOf (m : Nat) (e : Int) : Nat × Int :=
  let quarter (n : Nat) : Nat × Nat :=
    let f := e - 2
    if f < 0 then (n, 2 ^ (-f).toNat) else (n * 2 ^ f.toNat, 1)
  let below := if m = 2 ^ (52 : Nat) && Binary64.leastExponent < e then 4 * m - 1 else 4 * m - 2
  let mid := quarter (4 * m)
  search (quarter below) mid (quarter (4 * m + 2)) (m % 2 = 0) (leadingExponent mid.1 mid.2) 17 1

/-- Digits without the zeros at the end, and the exponent of the last one left. -/
def dropZeros : Nat → Nat × Int → Nat × Int
  | 0, p => p
  | fuel + 1, (d, k) => if d % 10 = 0 && d ≠ 0 then dropZeros fuel (d / 10, k + 1) else (d, k)

/-- Digits with the point placed: positional from 1e-4 up to 1e16, else with an exponent of at
least two digits. A whole number in positional notation ends in `.0`. -/
def layout (d : Nat) (last : Int) : List Char :=
  let ds := Numeral.digits d
  let point : Int := last + ds.length
  if -4 < point && point ≤ 16 then
    if point ≤ 0 then '0' :: '.' :: List.replicate (-point).toNat '0' ++ ds
    else if (ds.length : Int) ≤ point then
      ds ++ List.replicate (point - ds.length).toNat '0' ++ ['.', '0']
    else ds.take point.toNat ++ '.' :: ds.drop point.toNat
  else
    let head := match ds with
      | [] => []
      | [c] => [c]
      | c :: r => c :: '.' :: r
    let ex := point - 1
    head ++ 'e' :: (if ex < 0 then '-' else '+') :: Numeral.padded 2 ex.natAbs

def text : Binary64 → List Char
  | .nan => "nan".toList
  | .infinite s => if s then "-inf".toList else "inf".toList
  | .finite s m e =>
    let body := if m = 0 then "0.0".toList else
      let p := dropZeros 400 (digitsOf m e)
      layout p.1 p.2
    if s then '-' :: body else body

end QueryGateway.Number.Shortest

/-!
## Rounded digits

Floating-point numbers with a given number of digits: positional, with an exponent, or whichever of
the two is the shorter. The exact value is rounded once, a tie to the even digit.
-/

namespace QueryGateway.Number.Rounded

-- Powers are those of the core library, whatever else is in scope.
attribute [local instance (high)] instPowNat

/-- A quotient times a power of ten, as numerator and denominator. -/
def scaled (num den : Nat) (power : Int) : Nat × Nat :=
  if power < 0 then (num, den * 10 ^ (-power).toNat) else (num * 10 ^ power.toNat, den)

def units (num den : Nat) (power : Int) : Nat :=
  let s := scaled num den power
  Binary64.roundQuotient s.1 s.2

/-- Digits with a point in front of the last ones; a point at the end is left out unless it is
wanted. -/
def pointed (keepPoint : Bool) (places : Nat) (n : Nat) : List Char :=
  let ds := Numeral.padded (places + 1) n
  let whole := ds.take (ds.length - places)
  if places = 0 then (if keepPoint then whole ++ ['.'] else whole)
  else whole ++ '.' :: ds.drop (ds.length - places)

def fixed (keepPoint : Bool) (places : Nat) (num den : Nat) : List Char :=
  pointed keepPoint places (units num den places)

/-- The digits of a quotient, one more than there are places, and the exponent of the first. -/
def leading (places : Nat) (num den : Nat) : Nat × Int :=
  if num = 0 then (0, 0)
  else
    let e := Shortest.leadingExponent num den
    let n := units num den (places - e)
    if n = 10 ^ (places + 1) then (10 ^ places, e + 1) else (n, e)

/-- An exponent of two digits at least. -/
def power (e : Int) : List Char :=
  'e' :: (if e < 0 then '-' else '+') :: Numeral.padded 2 e.natAbs

/-- A quotient with one digit before the point, a number of places after it and an exponent. -/
def scientific (keepPoint : Bool) (places : Nat) (num den : Nat) : List Char :=
  let (n, e) := leading places num den
  pointed keepPoint places n ++ power e

def withoutZeros (s : List Char) : List Char :=
  if s.contains '.' then
    let t := (s.reverse.dropWhile (· == '0')).reverse
    if t.getLast? == some '.' then t.dropLast else t
  else s

/-- A quotient with a number of digits in all: positional unless the exponent is below minus four
or not below the number of digits. -/
def general (keepZeros : Bool) (count : Nat) (num den : Nat) : List Char :=
  let count := max count 1
  let (n, e) := leading (count - 1) num den
  let shorten (s : List Char) : List Char := if keepZeros then s else withoutZeros s
  if -4 ≤ e && e < count then
    shorten (fixed keepZeros ((count : Int) - 1 - e).toNat num den)
  else shorten (pointed keepZeros (count - 1) n) ++ power e

end QueryGateway.Number.Rounded
