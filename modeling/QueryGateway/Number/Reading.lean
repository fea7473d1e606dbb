import QueryGateway.Number.Binary64
import QueryGateway.Number.Numeral
import QueryGateway.Text.Parts

/-!
Numbers read from text. An integer may carry white space around it, a sign, leading zeros, single
underscores between digits, and a fraction of zeros. A floating-point number is the usual notation
with an optional exponent, or a word for infinity or no number.
-/

set_option autoImplicit false
set_option relaxedAutoImplicit false

namespace QueryGateway.Number.Reading

open QueryGateway.Text

-- Powers are those of the core library, whatever else is in scope.
attribute [local instance (high)] instPowNat

inductive Whole
  | read (i : Int) | malformed | tooLong
  deriving DecidableEq, Repr

/-- What follows the zeros and underscores in front of the first other digit or of a minus sign. A
point keeps the zero before it, and a text that ends within the zeros keeps its last character. -/
def dropLeadingZeros (previous : Char) : List Char → Option (List Char)
  | [] => some [previous]
  | c :: r =>
    if c = '0' || c = '_' then dropLeadingZeros c r
    else if ('1' ≤ c ∧ c ≤ '9') || c = '-' then some (c :: r)
    else if c = '.' then some (previous :: c :: r)
    else none

/-- A text without its leading zeros, if it starts with a digit. -/
def withoutLeadingZeros : List Char → Option (List Char)
  | [] => none
  | c :: r =>
    if c = '0' then dropLeadingZeros c r
    else if '1' ≤ c ∧ c ≤ '9' then some (c :: r)
    else none

/-- A text without the sign and the zeros in front of its digits; a minus sign is kept. -/
def unpadded : List Char → Option (List Char)
  | '+' :: '-' :: _ => none
  | '+' :: r => withoutLeadingZeros r
  | '-' :: r => (withoutLeadingZeros r).map ('-' :: ·)
  | s => withoutLeadingZeros s

def withoutZeroFraction (s : List Char) : List Char :=
  match Split.cutFirst? '.' s with
  | some (whole, fraction) =>
    if !fraction.isEmpty && fraction.all (· == '0') then whole else s
  | none => s

/-- A text without its underscores, each of which stands between two other characters. -/
def withoutUnderscores? (s : List Char) : Option (List Char) :=
  if s.head? == some '_' || s.getLast? == some '_' || Split.occursIn ['_', '_'] s then none
  else some (s.filter (· != '_'))

def minusSign : List Char → Bool × List Char
  | '-' :: r => (true, r)
  | s => (false, s)

/-- Whether a text starts with more digits than an integer may have, whatever follows them. A minus
sign counts as one of them. -/
def startsTooLong (s : List Char) : Bool :=
  let digits := ((minusSign s).2.takeWhile Char.isDigit).length
  (minusSign s).2.head? != some '0' &&
    Numeral.maxDigits < digits + (if (minusSign s).1 then 1 else 0)

/-- Digits with an optional minus sign; a zero stands in front of no other digit. -/
def signedDigits (s : List Char) : Whole :=
  let (negative, ds) := minusSign s
  match Numeral.nat? ds with
  | none => .malformed
  | some n =>
    if ds.head? == some '0' && 1 < ds.length then .malformed
    else .read (if negative then -(n : Int) else n)

/-- The integer that a text denotes, unless it starts with too many digits. -/
def bounded (s : List Char) : Whole := if startsTooLong s then .tooLong else signedDigits s

/-- The integer that a text denotes, with all that may come around its digits. -/
def padded (s : List Char) : Whole :=
  match unpadded (Blank.strip Blank.isSpace s) with
  | none => .malformed
  | some s =>
    match withoutUnderscores? (withoutZeroFraction s) with
    | some ds => bounded ds
    | none => .malformed

def whole (s : List Char) : Whole := if startsTooLong s then .tooLong else padded s

/-- Digits times a power of ten as the nearest floating-point number. Exponents far out of range
are settled without raising ten to them. -/
def ofDigits (negative : Bool) (ds : List Char) (exponent : Int) : Binary64 :=
  let ds := ds.dropWhile (· == '0')
  let top : Int := exponent + ds.length
  if ds.isEmpty || top < -400 then .finite negative 0 Binary64.leastExponent
  else if 400 < top then .infinite negative
  else
    let n := Numeral.valueOf ds
    if exponent < 0 then Binary64.ofRatio negative n (10 ^ (-exponent).toNat)
    else Binary64.ofRatio negative (n * 10 ^ exponent.toNat) 1

/-- A sign in front of a text, and the rest. -/
def sign : List Char → Bool × List Char
  | '-' :: r => (true, r)
  | '+' :: r => (false, r)
  | s => (false, s)

def exponent? : List Char → Option Int
  | [] => some 0
  | c :: r =>
    if c = 'e' || c = 'E' then
      let (negative, ds) := sign r
      (Numeral.nat? ds).map fun n => if negative then -(n : Int) else n
    else none

/-- Digits with an optional point, at least one digit in all, and an optional exponent, as the
digits and the power of ten that they are multiplied by. -/
def decimal? (s : List Char) : Option (List Char × Int) :=
  let front := s.takeWhile Char.isDigit
  let rest := s.dropWhile Char.isDigit
  let (back, rest) := match rest with
    | '.' :: r => (r.takeWhile Char.isDigit, r.dropWhile Char.isDigit)
    | _ => ([], rest)
  if front.isEmpty && back.isEmpty then none
  else (exponent? rest).map fun e => (front ++ back, e - back.length)

/-- The floating-point number that a text without white space denotes. -/
def float? (s : List Char) : Option Binary64 :=
  let (negative, body) := sign s
  let word := String.ofList (body.map Char.toLower)
  if word == "inf" || word == "infinity" then some (.infinite negative)
  else if word == "nan" then some .nan
  else (decimal? body).map fun p => ofDigits negative p.1 p.2

/-- The floating-point number that a text denotes, white space around it or single underscores
within it left out. -/
def lenientFloat? (s : List Char) : Option Binary64 :=
  match float? (Blank.strip Blank.isSpace s) with
  | some x => some x
  | none => (withoutUnderscores? s).bind float?

end QueryGateway.Number.Reading
