import QueryGateway.Engine.Run
import QueryGateway.Operation.Reader
import QueryGateway.Tool.Catalog
import QueryGateway.Tool.Envelope
import QueryGateway.Tool.Violation
import QueryGateway.Value.Json

/-!
Calls of tools, carried out and answered.
-/

set_option autoImplicit false
set_option relaxedAutoImplicit false

/-!
## Envelopes

The dispatcher: it carries out calls of enabled tools and answers every call with an envelope. What
is logged during a call is marked with the call, and nothing that comes after it is.
-/

namespace QueryGateway

open QueryGateway.Database
open QueryGateway.Tool (Selection)

/-- An engine and the kinds of operations whose tools are enabled. -/
structure Dispatcher where
  engine : Engine
  enabled : List OperationKind

namespace Dispatcher

def ofSelection (engine : Engine) (s : Selection) : Run Dispatcher := do
  if let some message := s.warning? then log .warning Selection.logger message []
  return ⟨engine, s.enabled⟩

def tools (d : Dispatcher) : List Tool := d.enabled.map Tool.ofKind

def isEnabled (d : Dispatcher) (tool : String) : Bool := d.enabled.any fun k => k.text == tool

def callSpan (request : Request) : Telemetry.Span :=
  let tool := match request.tool with
    | some t => if t.isEmpty then "unknown" else t
    | none => "unknown"
  { name := "sqlgate.tool." ++ tool
    isInternal := false
    attributes := request.telemetry.map fun e => (.text ("sqlgate." ++ e.1), e.2)
    describesFailure := false }

/-- Makes a request the one that log records are marked with. -/
def bindScope (request : Request) : Run Unit :=
  modify fun s => { s with scope := s.scope.bind (some request.id) request.tool }

/-- Marks log records with no request any more. -/
def clearScope : Run Unit := modify fun s => { s with scope := Log.Scope.empty }

def inScope {α : Type} (request : Request) (work : Attempt α) : Attempt α := do
  bindScope request
  inSpan (callSpan request) do
    let outcome ← ExceptT.lift work.run
    clearScope
    ExceptT.mk (pure outcome)

def logFor (request : Request) (level : Log.Level) (message : String) (fields : Fields) :
    Run Unit :=
  log level (Request.loggerName "dispatcher") message (request.telemetry.update fields)

/-- Carries out a call of an enabled tool. -/
def carryOut (d : Dispatcher) (now : String) (request : Request) (tool : String)
    (arguments : Value) : Attempt Fields := do
  let op ← Engine.orFailure (Operation.ofTool tool arguments)
  logFor request .debug ("Dispatching tool " ++ tool) op.telemetry
  let plan ← Engine.prepare request op
  let result ← d.engine.run request plan
  return Tool.Envelope.ofResult now op result

/-- The fault that stands for a failure which nobody expected. -/
def unexpected : Fault :=
  { Fault.ofClass .database "An unexpected error occurred" with
    code := .execution
    hint := some "Check the server logs for details" }

def answerFailure (request : Request) (tool : String) (f : Failure) : Run Fields :=
  match f.fault? with
  | some fault => do
    logFor request .warning ("Tool " ++ tool ++ " failed: " ++ fault.message)
      [("tool", .text tool), ("error_code", .text fault.code.text)]
    return fault.envelope
  | none => do
    logFailure (Request.loggerName "dispatcher") ("Unexpected error in tool " ++ tool)
      (request.telemetry.update [("tool", .text tool)]) f
    return unexpected.envelope

/-- The envelope that answers a call of a tool which a request is about. -/
def answer (d : Dispatcher) (now : String) (request : Request) (tool : String)
    (arguments : Value) : Run Fields := do
  let work : Attempt Fields :=
    if d.isEnabled tool then inScope request (d.carryOut now request tool arguments)
    else throw (.ofFault (Operation.unknownTool tool))
  match ← work.run with
  | .ok envelope => return envelope
  | .error f => answerFailure request tool f

/-- The envelope that answers a call of a tool. The context of the call makes a request before
anything else is done, and outside of all handling of failures. -/
def dispatch (d : Dispatcher) (now : String) (context : CallContext) (tool : String)
    (arguments : Value) : Attempt Fields := do
  let request ← Engine.orFailure { context with tool := some tool }.request
  d.answer now request tool arguments

end Dispatcher

end QueryGateway

/-!
## Answers

Answers to remote callers: a text, and whether it tells of an error. The arguments of an enabled
tool are checked against its schema before the call is dispatched.
-/

namespace QueryGateway.Tool

open QueryGateway.Database (Run)

structure Answer where
  isError : Bool
  text : String
  deriving DecidableEq, Repr

namespace Answer

def tellsError (envelope : Fields) : Bool := ((envelope.get? "error").getD .null).isTruthy

def ofFailure (f : Failure) : Answer := ⟨true, f.text.toOption.getD Failure.unwrittenText⟩

/-- The answer that an envelope makes, or what keeps it from being written. -/
def ofEnvelope (envelope : Fields) : Answer :=
  match Failure.written (Value.Json.document? (.object envelope)) with
  | .ok text => ⟨tellsError envelope, text⟩
  | .error f => ofFailure f

/-- What is wrong with the arguments of a call; those of a tool that is not enabled are not looked
at. -/
def objection? (d : Dispatcher) (tool : String) (arguments : Value) :
    Except Failure (Option String) :=
  match d.tools.find? fun t => t.name == tool with
  | some t => t.arguments.objection? arguments
  | none => .ok none

def ofCall (d : Dispatcher) (now : String) (context : CallContext) (tool : String)
    (arguments : Value) : Run Answer :=
  match objection? d tool arguments with
  | .error f => return ofFailure f
  | .ok (some message) => return ⟨true, "Input validation error: " ++ message⟩
  | .ok none => do
    match ← (d.dispatch now context tool arguments).run with
    | .ok envelope => return ofEnvelope envelope
    | .error f => return ofFailure f

end Answer

end QueryGateway.Tool
