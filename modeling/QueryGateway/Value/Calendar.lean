import QueryGateway.Value

/-!
Days, times, moments and durations as text. The standard form joins day and time by a letter; a
fraction of a second is written with six digits or not at all.
-/

set_option autoImplicit false
set_option relaxedAutoImplicit false

namespace QueryGateway.Value.Calendar

open QueryGateway.Number

def dayText (d : Day) : List Char :=
  Numeral.padded 4 d.year ++ '-' :: Numeral.padded 2 d.month ++ '-' :: Numeral.padded 2 d.day

/-- Hour, minute, second and any fraction. -/
def clockText (c : Clock) : List Char :=
  Numeral.padded 2 c.hour ++ ':' :: Numeral.padded 2 c.minute ++ ':' :: Numeral.padded 2 c.second ++
    if c.microsecond = 0 then [] else '.' :: Numeral.padded 6 c.microsecond

def offsetText : Option Int → List Char
  | none => []
  | some m =>
    (if m < 0 then '-' else '+') :: Numeral.padded 2 (m.natAbs / 60) ++
      ':' :: Numeral.padded 2 (m.natAbs % 60)

def momentText (mark : Char) (d : Day) (c : Clock) (offset : Option Int) : List Char :=
  dayText d ++ mark :: clockText c ++ offsetText offset

def dayLength : Int := 86400000000

/-- The days, seconds and microseconds of a duration, the latter two not negative. -/
def durationParts (u : Int) : Int × Nat × Nat :=
  let rest := (Int.fmod u dayLength).toNat
  (Int.fdiv u dayLength, rest / 1000000, rest % 1000000)

/-- A duration as days and a time of day. -/
def durationText (u : Int) : List Char :=
  let (days, seconds, micros) := durationParts u
  let front :=
    if days = 0 then []
    else Numeral.ofInt days ++ (if days.natAbs = 1 then " day, " else " days, ").toList
  front ++ Numeral.digits (seconds / 3600) ++ ':' :: Numeral.padded 2 (seconds / 60 % 60) ++
    ':' :: Numeral.padded 2 (seconds % 60) ++
    if micros = 0 then [] else '.' :: Numeral.padded 6 micros

def call (name : String) (arguments : List (List Char)) : List Char :=
  name.toList ++ '(' :: (arguments.intersperse [',', ' ']).flatten ++ [')']

def durationCall (u : Int) : List Char :=
  let (days, seconds, micros) := durationParts u
  let named (name : String) (n : Int) : List (List Char) :=
    if n = 0 then [] else [name.toList ++ '=' :: Numeral.ofInt n]
  let arguments := named "days" days ++ named "seconds" seconds ++ named "microseconds" micros
  call "datetime.timedelta" (if arguments.isEmpty then [['0']] else arguments)

/-- Numbers without the zeros at the end, of which at most two are left out. -/
def significant (required : List Nat) (second micros : Nat) : List (List Char) :=
  let optional :=
    if micros = 0 then (if second = 0 then [] else [second]) else [second, micros]
  (required ++ optional).map Numeral.digits

def dayCall (d : Day) : List Char :=
  call "datetime.date" ([d.year, d.month, d.day].map Numeral.digits)

/-- A time of day as the call that builds it. -/
def clockCall (c : Clock) : List Char :=
  call "datetime.time" (significant [c.hour, c.minute] c.second c.microsecond)

def momentCall (d : Day) (c : Clock) (offset : Option Int) : List Char :=
  let zone := match offset with
    | none => []
    | some m =>
      let value :=
        if m = 0 then "datetime.timezone.utc".toList
        else call "datetime.timezone" [durationCall (m * 60000000)]
      ["tzinfo=".toList ++ value]
  call "datetime.datetime"
    (significant [d.year, d.month, d.day, c.hour, c.minute] c.second c.microsecond ++ zone)

def durationSeconds (u : Int) : Binary64 := Binary64.ofRatio (u < 0) u.natAbs 1000000

end QueryGateway.Value.Calendar
