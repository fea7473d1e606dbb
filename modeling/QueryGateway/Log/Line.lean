import QueryGateway.Log.Record
import QueryGateway.Log.Template
import QueryGateway.Text.Classes
import QueryGateway.Text.Parts
import QueryGateway.Value.Json

/-!
Log records as lines of text, without the passwords of connection URLs.
-/

set_option autoImplicit false
set_option relaxedAutoImplicit false

/-!
## Passwords

Passwords in connection URLs, masked wherever such a URL stands in a text. A URL is one of the
database with a user in front of the password; the password ends at the first at sign.
-/

namespace QueryGateway.Log.Redaction

open QueryGateway.Text

/-- What follows a fixed beginning, if a text has it. -/
def after? (front : List Char) (s : List Char) : Option (List Char) :=
  if front.isPrefixOf s then some (s.drop front.length) else none

/-- What follows the name of a driver after a plus sign; a name is not needed. -/
def afterDriver? : List Char → Option (List Char)
  | '+' :: r =>
    if (r.takeWhile Word.isWord).isEmpty then none else some (r.dropWhile Word.isWord)
  | s => some s

/-- What follows the scheme of a connection URL and its slashes. -/
def afterScheme? (s : List Char) : Option (List Char) := do
  let r ← after? "mysql".toList s
  let r := (after? ['2'] r).getD r
  let r ← afterDriver? r
  after? "://".toList r

def isUserChar (c : Char) : Bool := !(c == ':' || c == '/' || c == '@' || Blank.isBlank c)

def isPasswordChar (c : Char) : Bool := !(c == '@' || Blank.isBlank c)

/-- The part that a class of characters makes up at the start, unless it is empty, and the rest. -/
def span? (p : Char → Bool) (s : List Char) : Option (List Char × List Char) :=
  if (s.takeWhile p).isEmpty then none else some (s.takeWhile p, s.dropWhile p)

/-- What stands in front of the password and the password, if a text begins with a URL that has
one. -/
def credentials? (s : List Char) : Option (List Char × List Char) := do
  let (_, r) ← (afterScheme? s).bind (span? isUserChar)
  let r ← after? [':'] r
  let (password, rest) ← span? isPasswordChar r
  let _ ← after? ['@'] rest
  return (s.take (s.length - r.length), password)

def mask : List Char := ['*', '*', '*']

/-- A text with its passwords masked, after leaving out some characters at its start. -/
def maskFrom : Nat → List Char → List Char
  | _, [] => []
  | skipped + 1, _ :: r => maskFrom skipped r
  | 0, c :: r =>
    match credentials? (c :: r) with
    | some (front, password) => front ++ mask ++ maskFrom (front.length + password.length - 1) r
    | none => c :: maskFrom 0 r

def redact (s : String) : String := String.ofList (maskFrom 0 s.toList)

end QueryGateway.Log.Redaction

/-!
## Lines

Log records as lines: one JSON object each, with the time, the level, the logger and the message
first, the fields of the record next, and what is known about the span and the failure last.
Passwords in the message are masked. A field may stand in place of a part that every record has.
-/

namespace QueryGateway.Log.Line

open QueryGateway.Number

-- Powers are those of the core library, whatever else is in scope.
attribute [local instance (high)] instPowNat

/-- The day that lies a number of days after the first of March of the year zero. -/
def dayAfterMarch (n : Nat) : Day :=
  let era := n / 146097
  let inEra := n % 146097
  let year := (inEra - inEra / 1460 + inEra / 36524 - inEra / 146096) / 365
  let inYear := inEra - (365 * year + year / 4 - year / 100)
  let month := (5 * inYear + 2) / 153
  let day := inYear - (153 * month + 2) / 5 + 1
  let month := if month < 10 then month + 3 else month - 9
  ⟨year + era * 400 + (if month ≤ 2 then 1 else 0), month, day⟩

/-- Days from the first of March of the year zero to the first of January 1970. -/
def daysToEpoch : Int := 719468

def firstSecond : Int := -62135596800

/-- The seconds after the last moment of the year 9999. -/
def endSecond : Int := 253402300800

/-- The first and the last second in a year that 32 bits hold. -/
def yearLimits : Int × Int := (-67768040609740800, 67768036191676799)

/-- Why a time cannot be written: it is of another kind than numbers are, it is no number, its
seconds do not fit 64 bits, its year not 32 bits, or its year has not one to four digits. -/
inductive TimeProblem
  | unsuitable | notNumber | tooManySeconds | tooManyYears | year
  deriving DecidableEq, Repr

def momentOf (microseconds : Int) : Except TimeProblem (Day × Clock) :=
  let seconds := Int.fdiv microseconds 1000000
  if seconds < -9223372036854775808 || 9223372036854775808 ≤ seconds then .error .tooManySeconds
  else if seconds < yearLimits.1 || yearLimits.2 < seconds then .error .tooManyYears
  else if seconds < firstSecond || endSecond ≤ seconds then .error .year
  else
    let rest := (Int.fmod seconds 86400).toNat
    .ok (dayAfterMarch (Int.fdiv seconds 86400 + daysToEpoch).toNat,
      ⟨rest / 3600, rest / 60 % 60, rest % 60, (Int.fmod microseconds 1000000).toNat⟩)

/-- A floating-point amount of seconds in microseconds: the whole part, and the fraction multiplied
and rounded, a tie to the even number. -/
def microsecondsOfFloat (x : Binary64) : Except TimeProblem Int :=
  match x.ratio? with
  | none => .error (if x = .nan then .notNumber else .tooManySeconds)
  | some (n, d) =>
    let whole := Int.tdiv n d
    let fraction := Binary64.ofRatio false (Int.tmod n d).natAbs d
    let (m, e) := ((fraction.mul (Binary64.ofInt 1000000)).ratio?).getD (0, 1)
    let rounded : Int := Binary64.roundQuotient m.natAbs e
    .ok (whole * 1000000 + (if n < 0 then -rounded else rounded))

def microsecondsOf : Value → Except TimeProblem Int
  | .int n => .ok (n * 1000000)
  | .bool b => .ok (if b then 1000000 else 0)
  | .float x => microsecondsOfFloat x
  | _ => .error .unsuitable

def timestamp (created : Value) : Except TimeProblem String := do
  let (day, clock) ← momentOf (← microsecondsOf created)
  return String.ofList (Value.Calendar.momentText 'T' day clock (some 0))

/-- Names of fields that records keep for themselves, so that they are not written again. -/
def reserved : List String :=
  ["name", "msg", "args", "levelname", "levelno", "pathname", "filename", "module", "exc_info",
   "exc_text", "stack_info", "lineno", "funcName", "created", "msecs", "relativeCreated", "thread",
   "threadName", "processName", "process", "asctime", "message"]

/-- The fields of a record that are written: those with a value and a name that is not reserved. -/
def written (fields : Fields) : Fields :=
  fields.filter fun e =>
    !reserved.contains e.1 && match e.2 with
      | .null => false
      | _ => true

def part (r : Record) (name : String) (default : Value) : Value :=
  (r.fields.get? name).getD default

structure SpanIdentity where
  trace : Nat
  span : Nat
  deriving DecidableEq, Repr

/-- Whether an identity is that of a span: neither number is zero or too large. -/
def SpanIdentity.isValid (i : SpanIdentity) : Bool :=
  0 < i.trace && i.trace < 2 ^ (128 : Nat) && 0 < i.span && i.span < 2 ^ (64 : Nat)

def spanFields : Option SpanIdentity → Fields
  | some i =>
    if i.isValid then
      [("trace_id", .text (String.ofList (Text.Hexadecimal.fixed 32 i.trace))),
       ("span_id", .text (String.ofList (Text.Hexadecimal.fixed 16 i.span)))]
    else []
  | none => []

/-- Why a field in place of the failure cannot be told: it has no parts, it has fewer than three
parts, it is asked for a part by a key that it lacks, or its parts are not those of a failure. -/
inductive FailureProblem
  | noParts | tooFewParts | noKey | otherParts
  deriving DecidableEq, Repr

/-- The parts that stand for a failure as text. Only parts that say nothing can be told. -/
def partsText : List Value → Except FailureProblem String
  | _ :: .null :: .null :: _ => .ok "NoneType: None"
  | _ :: _ :: _ :: _ => .error .otherParts
  | _ => .error .tooFewParts

def standInText : Value → Except FailureProblem String
  | .list vs | .tuple vs => partsText vs
  | .text s => .error (if s.length < 3 then .tooFewParts else .otherParts)
  | .bytes _ b => .error (if b.length < 3 then .tooFewParts else .otherParts)
  | .object _ => .error .noKey
  | _ => .error .noParts

/-- The failure that a record tells as text: its own, unless a field stands in its place. -/
def failureText? (r : Record) : Except FailureProblem (Option String) :=
  match r.fields.get? "exc_info" with
  | none => .ok (r.failure.map Failure.account)
  | some v => if v.isTruthy then (standInText v).map some else .ok none

def failureFields : Option String → Fields
  | some t => [("exception", .text t)]
  | none => []

/-- Why a record cannot be written as a line. -/
inductive Problem
  | time (p : TimeProblem)
  | unavailableMessage
  | message (p : Template.Problem)
  | failure (p : FailureProblem)
  | unwritable
  deriving DecidableEq, Repr

/-- A text as far as there is one: what has none holds an integer that cannot be written. -/
def inWords (text : Option String) : Except Problem String :=
  (text.map Except.ok).getD (.error .unwritable)

/-- What the arguments of a record stand for: a single object that is not empty for itself. -/
def argumentsValue : List Value → Value
  | [.object (e :: es)] => .object (e :: es)
  | vs => .tuple vs

/-- The message of a record, filled in unless there is nothing to fill in. A field that takes the
place of working it out leaves no message. -/
def messageOf (r : Record) (arguments : List Value) : Except Problem String :=
  if Fields.has r.fields "getMessage" then .error .unavailableMessage
  else do
    let template ← inWords (Value.Display.text? (part r "msg" (.text r.message)))
    let given := part r "args" (argumentsValue arguments)
    if given.isTruthy then (Template.format template given).mapError Problem.message
    else .ok template

def entry (time message : String) (span : Option SpanIdentity) (failure : Option String)
    (r : Record) : Fields :=
  let front : Fields :=
    [("timestamp", .text time), ("level", part r "levelname" (.text r.level.name)),
     ("logger", part r "name" (.text r.logger)), ("message", .text (Redaction.redact message))]
  ((front.update (written r.fields)).update (spanFields span)).update (failureFields failure)

def ofRecord (created : Value) (arguments : List Value) (span : Option SpanIdentity)
    (r : Record) : Except Problem String := do
  let time ← (timestamp (part r "created" created)).mapError Problem.time
  let message ← messageOf r arguments
  let failure ← (failureText? r).mapError Problem.failure
  inWords (Value.Json.compact? (.object (entry time message span failure r)))

end QueryGateway.Log.Line
