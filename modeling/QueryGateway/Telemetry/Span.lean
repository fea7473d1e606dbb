import QueryGateway.Failure
import QueryGateway.Value.Pairs

/-!
Spans: pieces of work that telemetry follows from beginning to end. A span tells its attributes when
it opens, and a failure of its work before it closes; the failure itself goes on unless it has no
text.
-/

set_option autoImplicit false
set_option relaxedAutoImplicit false

namespace QueryGateway.Telemetry

inductive SpanEvent
  | opened (name : String) (isInternal : Bool)
  | attribute (name value : Value)
  | failed (name text : String)
  | status (description : Option String)
  | closed
  deriving Repr

/-- A span: its name, whether it is marked as internal work, its attributes, and whether its status
describes a failure. -/
structure Span where
  name : String
  isInternal : Bool
  attributes : Entries
  describesFailure : Bool
  deriving Repr

namespace Span

/-- The attributes that are told: those with a value. -/
def told (s : Span) : Entries :=
  s.attributes.filter fun e =>
    match e.2 with
    | .null => false
    | _ => true

def opening (s : Span) : List SpanEvent :=
  .opened s.name s.isInternal :: s.told.map fun e => .attribute e.1 e.2

def closing {α : Type} (s : Span) : Except Failure α → List SpanEvent
  | .ok _ => [.closed]
  | .error f =>
    match f.text with
    | .ok text =>
      [.failed f.name text, .status (if s.describesFailure then some text else none), .closed]
    | .error _ => [.closed]

/-- What the work of a span comes to: where a failure has no text, what keeps it from having one. -/
def outcome {α : Type} : Except Failure α → Except Failure α
  | .ok a => .ok a
  | .error f =>
    match f.text with
    | .ok _ => .error f
    | .error g => .error (g.within (some f))

def around {m : Type → Type} [Monad m] {α : Type} (s : Span) (tell : SpanEvent → m Unit)
    (work : m (Except Failure α)) : m (Except Failure α) := do
  s.opening.forM tell
  let result ← work
  (s.closing result).forM tell
  return outcome result

end Span

/-- Attributes that are worked out for every call: entries, or the failure of working them out. -/
abbrev Gathered := Except Failure Value

/-- The text of what kept attributes from being gathered, if anything did. -/
def Gathered.problem? : Gathered → Except Failure (Option String)
  | .error f => f.text.map some
  | .ok v => .ok ((Value.Pairs.gathered v).2.map Value.Pairs.Problem.text)

/-- The attributes that were gathered before anything kept others from it. -/
def Gathered.entries : Gathered → Entries
  | .error _ => []
  | .ok v => (Value.Pairs.gathered v).1

/-- The span of a function: fixed attributes, those gathered for the call in their place. -/
def callSpan (name : String) (fixed gathered : Entries) : Span :=
  ⟨name, true, fixed.update gathered, true⟩

/-- The warning that tells why attributes could not be gathered. -/
def gatherWarning (name problem : String) : String :=
  "Span attribute getter for " ++ name ++ " failed: " ++ problem

end QueryGateway.Telemetry
