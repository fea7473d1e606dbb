import QueryGateway.Failure
import QueryGateway.Text.Parts
import QueryGateway.Text.Classes

/-!
Whole numbers that values count as. Fractions are dropped; a text has to be a number with an
optional sign, in digits of any script, of which single underscores may set groups apart. Too many
digits are refused even where something else follows them.
-/

set_option autoImplicit false
set_option relaxedAutoImplicit false

namespace QueryGateway.Value

open QueryGateway.Text

namespace Whole

inductive Reading
  | read (n : Int) | malformed | tooLong (digits : Nat)
  deriving DecidableEq, Repr

/-- Digits with single underscores between them, counted and read on from a number, and the rest;
the flag tells whether a digit has to come next. -/
def takeDigits (needsDigit : Bool) (count n : Nat) : List Char → Option (Nat × Nat × List Char)
  | [] => if needsDigit then none else some (count, n, [])
  | c :: r =>
    match Digit.value? c with
    | some d => takeDigits false (count + 1) (n * 10 + d) r
    | none =>
      if needsDigit then none
      else if c = '_' then takeDigits true count n r
      else some (count, n, c :: r)

/-- The number that a text without a sign denotes, with a sign given to it. -/
def ofDigits (negative : Bool) (s : List Char) : Reading :=
  match takeDigits true 0 0 s with
  | none => .malformed
  | some (count, n, rest) =>
    if Number.Numeral.maxDigits < count then .tooLong count
    else if rest.isEmpty then .read (if negative then -(n : Int) else n)
    else .malformed

/-- The number that a text denotes, white space of some class around it left out. -/
def ofText (isSpace : Char → Bool) (s : List Char) : Reading :=
  match Blank.strip isSpace s with
  | '-' :: r => ofDigits true r
  | '+' :: r => ofDigits false r
  | r => ofDigits false r

/-- White space around a number that is written in bytes. -/
def isAsciiSpace (c : Char) : Bool := Blank.isSpace c && c.toNat < 128

def failure (f : ComputationFailure) (message : String) : Failure :=
  .ofText (.computation f) message

def shownLength : Nat := 200

/-- What came of reading a number as a result; the text is shown as far as it fits. -/
def Reading.result (shown : List Char) : Reading → Except Failure Int
  | .read n => .ok n
  | .malformed =>
    .error (failure .unsuitableValue
      ("invalid literal for int() with base 10: " ++ String.ofList (shown.take shownLength)))
  | .tooLong digits =>
    .error (failure .unsuitableValue
      ("Exceeds the limit (" ++ toString Number.Numeral.maxDigits ++
        " digits) for integer string conversion: value has " ++ toString digits ++
        " digits; use sys.set_int_max_str_digits() to increase the limit"))

def ofFloat (x : Number.Binary64) : Except Failure Int :=
  match x with
  | .nan => .error (failure .unsuitableValue "cannot convert float NaN to integer")
  | .infinite _ => .error (failure .tooLarge "cannot convert float infinity to integer")
  | x => .ok (x.truncate?.getD 0)

def ofDecimal (d : Number.Decimal) : Except Failure Int :=
  match d with
  | .nan _ _ _ => .error (failure .unsuitableValue "cannot convert NaN to integer")
  | .infinite _ => .error (failure .tooLarge "cannot convert Infinity to integer")
  | d => .ok (d.truncate?.getD 0)

def ofIdentifier (s : String) : Int :=
  s.toList.foldl (fun n c =>
    match Hexadecimal.value? c with
    | some d => n * 16 + d
    | none => n) 0

def ofValue (v : Value) : Except Failure Int :=
  match v with
  | .int i => .ok i
  | .bool b => .ok (if b then 1 else 0)
  | .float x => ofFloat x
  | .decimal d => ofDecimal d
  | .text s => (ofText Blank.isSpace s.toList).result (Quoted.ofText s.toList)
  | .bytes _ b =>
    (ofText isAsciiSpace (b.map fun x => Char.ofNat x.toNat)).result
      (Quoted.ofBytes (b.take shownLength))
  | .uuid s => .ok (ofIdentifier s)
  | v =>
    .error (failure .unsuitableKind
      ("int() argument must be a string, a bytes-like object or a real number, not '" ++
        fullKindName v ++ "'"))

end Whole

end QueryGateway.Value
