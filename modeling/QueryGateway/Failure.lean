import QueryGateway.Fault
import QueryGateway.Text.Octets

/-!
Failures: everything that a database, its driver or the system below may raise, and the faults that
the gateway raises itself. A failure may have a cause, and a context in which it arose. Its text may
be more than can be written, and asking for it fails then.
-/

set_option autoImplicit false
set_option relaxedAutoImplicit false

namespace QueryGateway

/-- Failures of the operating system that tell something about a connection. -/
inductive SystemFailure
  | other | refused | reset | aborted | brokenPipe | timedOut
  deriving DecidableEq, Repr

/-- What the arguments of a system failure say: a number with a text, and up to two files. -/
structure SystemReport where
  number : Value
  message : Value
  file : Value := .null
  target : Value := .null
  deriving Repr

namespace SystemReport

/-- The report that two to five arguments make; the fourth one says nothing. -/
def ofArguments? : List Value → Option SystemReport
  | [n, m] => some { number := n, message := m }
  | [n, m, f] => some { number := n, message := m, file := f }
  | [n, m, f, _] => some { number := n, message := m, file := f }
  | [n, m, f, _, t] => some { number := n, message := m, file := f, target := t }
  | _ => none

def number? (r : SystemReport) : Option Int :=
  match r.number with
  | .int n => some n
  | .bool b => some (if b then 1 else 0)
  | _ => none

/-- Numbers of operations that would have had to wait. -/
def blockingNumbers : List Int := [11, 114, 115]

def numberedNames : List (Int × String) :=
  [(1, "PermissionError"), (2, "FileNotFoundError"), (3, "ProcessLookupError"),
   (4, "InterruptedError"), (10, "ChildProcessError"), (13, "PermissionError"),
   (17, "FileExistsError"), (20, "NotADirectoryError"), (21, "IsADirectoryError")] ++
    blockingNumbers.map fun n => (n, "BlockingIOError")

/-- What a number says about a connection. -/
def meaning (number : Int) : SystemFailure :=
  if number = 32 ∨ number = 108 then .brokenPipe
  else if number = 103 then .aborted
  else if number = 104 then .reset
  else if number = 110 then .timedOut
  else if number = 111 then .refused
  else .other

/-- Whether the third argument is a count and no file, as it may be where an operation would have
had to wait. -/
def hasCount (named : SystemFailure) (r : SystemReport) : Bool :=
  named == .other && (r.number?.any blockingNumbers.contains) &&
    match r.file with
    | .int _ | .bool _ => true
    | _ => false

def filesText? (r : SystemReport) : Option String :=
  match r.file, r.target with
  | .null, _ => some ""
  | f, .null => do return ": " ++ (← Value.Display.quoted? f)
  | f, t => do return ": " ++ (← Value.Display.quoted? f) ++ " -> " ++ (← Value.Display.quoted? t)

def text? (named : SystemFailure) (r : SystemReport) : Option String := do
  let number ← Value.Display.text? r.number
  let message ← Value.Display.text? r.message
  let files ← if hasCount named r then some "" else filesText? r
  return "[Errno " ++ number ++ "] " ++ message ++ files

end SystemReport

/-- What a failure of the system is: the number of its report decides unless it has been named. -/
def SystemFailure.ofArguments (named : SystemFailure) (arguments : List Value) : SystemFailure :=
  match named, (SystemReport.ofArguments? arguments).bind SystemReport.number? with
  | .other, some number => SystemReport.meaning number
  | named, _ => named

inductive ComputationFailure
  | unsuitableValue | unsuitableKind | tooLarge | undefined | overflow | outOfMemory
  deriving DecidableEq, Repr

/-- What a failure is. The toolkit tells of a statement that it did not hand to the driver with the
statement and its parameters. -/
inductive FailureKind
  | general (name : String)
  | toolkit (name : String)
  | unsent (statement params : Value)
  | missingKey
  | system (f : SystemFailure)
  | computation (f : ComputationFailure)
  | statement (name : String) (integrity invalidated : Bool)
  | poolTimeout
  | refusal (f : Fault)
  deriving Repr, Inhabited

/-- A failure with its arguments. A failed statement has the failure of the driver as its origin. -/
inductive Failure
  | mk (kind : FailureKind) (arguments : List Value) (origin cause context : Option Failure)
  deriving Repr, Inhabited

namespace Failure

def kind : Failure → FailureKind
  | mk k _ _ _ _ => k

def arguments : Failure → List Value
  | mk _ as _ _ _ => as

/-- The failure of the driver behind a failed statement. -/
def origin : Failure → Option Failure
  | mk _ _ o _ _ => o

def cause : Failure → Option Failure
  | mk _ _ _ c _ => c

def context : Failure → Option Failure
  | mk _ _ _ _ c => c

def ofText (kind : FailureKind) (message : String) : Failure :=
  mk kind [.text message] none none none

def ofFault (f : Fault) : Failure := ofText (.refusal f) f.message

def causedBy (f : Fault) (cause : Failure) : Failure :=
  mk (.refusal f) [.text f.message] none (some cause) (some cause)

def fault? (f : Failure) : Option Fault :=
  match f.kind with
  | .refusal g => some g
  | _ => none

/-- The failure as it is when it arises while another is being handled. -/
def within (f : Failure) (other : Option Failure) : Failure :=
  match other with
  | none => f
  | some c => mk f.kind f.arguments f.origin f.cause (some c)

/-- A failure and, one after another, what led to it: the cause if there is one, else the
context. -/
def chain : Failure → List Failure
  | mk k as o (some c) x => mk k as o (some c) x :: chain c
  | mk k as o none (some c) => mk k as o none (some c) :: chain c
  | mk k as o none none => [mk k as o none none]

/-- The failure of writing an integer that has too many digits. -/
def unwritable : Failure :=
  ofText (.computation .unsuitableValue)
    ("Exceeds the limit (" ++ toString Number.Numeral.maxDigits ++
      " digits) for integer string conversion; " ++
      "use sys.set_int_max_str_digits() to increase the limit")

/-- A refusal of input: which field, which value, why. A null value is not shown. -/
def invalid (message : String) (field : String := "") (value : Value := .null)
    (code : Code := .validation) (hint : Option String := none) : Failure :=
  match value with
  | .null => ofFault (.invalid message field none code hint)
  | v =>
    match Fault.shown? v with
    | some s => ofFault (.invalid message field (some s) code hint)
    | none => unwritable

/-- A text as far as there is one: what has none holds an integer that cannot be written. -/
def written (text : Option String) : Except Failure String :=
  (text.map Except.ok).getD (.error unwritable)

/-- Arguments as text: nothing, the one there is, or all in parentheses. -/
def argumentsText? : List Value → Option String
  | [] => some ""
  | [a] => Value.Display.text? a
  | as => Value.Display.quoted? (.tuple as)

/-- The text of a system failure, which is that of its report if its arguments make one. -/
def systemText? (f : SystemFailure) (arguments : List Value) : Option String :=
  match SystemReport.ofArguments? arguments with
  | some r => r.text? f
  | none => argumentsText? arguments

/-- The arguments of a failure of the database toolkit as text; bytes are read as text. -/
def toolkitText? : List Value → Option String
  | [] => Value.Display.quoted? (.tuple [])
  | [.bytes .fixed b] => some (String.ofList (Text.Utf8.decodeMarked b))
  | as => argumentsText? as

/-- The failure of putting more than one value where there is a place for one. -/
def unplaced : Failure :=
  ofText (.computation .unsuitableKind) "not all arguments converted during string formatting"

/-- A value put in the one place that there is, where a tuple stands for what it lists. -/
def placed : Value → Except Failure String
  | .tuple [v] => written (Value.Display.text? v)
  | .tuple (_ :: _ :: _) => .error unplaced
  | v => written (Value.Display.text? v)

def shownParams : Nat := 300

/-- A text without its middle if it is long. -/
def abridged (s : List Char) : List Char :=
  if s.length ≤ shownParams then s
  else
    s.take (shownParams / 2) ++
      (" ... (" ++ toString (s.length - shownParams) ++ " characters truncated) ... ").toList ++
      s.drop (s.length - shownParams / 2)

/-- A message with the statement that it is about and the parameters of that, as far as there are
any. -/
def unsentText (message : Option String) (statement params : Value) : Except Failure String := do
  let message ← written message
  if !statement.isTruthy then return message
  let shown ← placed statement
  let front := message ++ "\n[SQL: " ++ shown ++ "]"
  if !params.isTruthy then return front
  let given ← written (Value.Display.quoted? params)
  return front ++ "\n[parameters: " ++ String.ofList (abridged given.toList) ++ "]"

def text (f : Failure) : Except Failure String :=
  match f.kind, f.arguments with
  | .refusal g, _ => .ok g.text
  | .system s, as => written (systemText? s as)
  | .toolkit _, as => written (toolkitText? as)
  | .unsent s ps, as => unsentText (toolkitText? as) s ps
  | .poolTimeout, as => written (toolkitText? as)
  | .missingKey, [a] => written (Value.Display.quoted? a)
  | _, as => written (argumentsText? as)

def systemName (f : SystemFailure) (arguments : List Value) : String :=
  match f with
  | .refused => "ConnectionRefusedError"
  | .reset => "ConnectionResetError"
  | .aborted => "ConnectionAbortedError"
  | .brokenPipe => "BrokenPipeError"
  | .timedOut => "TimeoutError"
  | .other =>
    let named := ((SystemReport.ofArguments? arguments).bind SystemReport.number?).bind fun n =>
      SystemReport.numberedNames.find? fun p => p.1 == n
    (named.map (·.2)).getD "OSError"

def computationName : ComputationFailure → String
  | .unsuitableValue => "ValueError"
  | .unsuitableKind => "TypeError"
  | .tooLarge => "OverflowError"
  | .undefined => "InvalidOperation"
  | .overflow => "Overflow"
  | .outOfMemory => "MemoryError"

def name (f : Failure) : String :=
  match f.kind with
  | .general n => n
  | .toolkit n => n
  | .unsent _ _ => "StatementError"
  | .missingKey => "KeyError"
  | .system s => systemName s f.arguments
  | .computation c => computationName c
  | .statement n _ _ => n
  | .poolTimeout => "TimeoutError"
  | .refusal g => g.category.name

/-- What comes before the name of a failure to tell where it is from. -/
def origination : FailureKind → String
  | .toolkit _ | .unsent _ _ | .statement _ _ _ | .poolTimeout => "sqlalchemy.exc."
  | .refusal _ => "sqlgate.common.exceptions."
  | _ => ""

/-- What an account says in place of a text that cannot be written. -/
def unwrittenText : String := "<exception str() failed>"

/-- A failure as its full name and, unless it is empty, its text. -/
def headline (f : Failure) : String :=
  let name := origination f.kind ++ f.name
  let text := f.text.toOption.getD unwrittenText
  if text.isEmpty then name else name ++ ": " ++ text

def causeLink : String :=
  "\n\nThe above exception was the direct cause of the following exception:\n\n"

def contextLink : String :=
  "\n\nDuring handling of the above exception, another exception occurred:\n\n"

/-- A failure after everything that led to it, the first of it in front. -/
def account : Failure → String
  | mk k as o (some c) x => account c ++ causeLink ++ headline (mk k as o (some c) x)
  | mk k as o none (some c) => account c ++ contextLink ++ headline (mk k as o none (some c))
  | mk k as o none none => headline (mk k as o none none)

/-- The failure of the driver behind a failed statement, else the failure itself. -/
def unwrapped (f : Failure) : Failure :=
  match f.kind, f.origin with
  | .statement _ _ _, some o => o
  | _, _ => f

/-- The number of the server that a failure carries as its first argument. -/
def number? (f : Failure) : Option Int :=
  match f.arguments with
  | .int n :: _ => some n
  | _ => none

def driverMessage (f : Failure) : Except Failure String :=
  match f.unwrapped.arguments with
  | .int _ :: .text s :: _ => .ok s
  | .bool _ :: .text s :: _ => .ok s
  | _ => f.unwrapped.text

end Failure

end QueryGateway
