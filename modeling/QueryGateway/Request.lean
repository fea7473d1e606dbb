import QueryGateway.Failure
import QueryGateway.Input.Coercion

/-!
Requests: what identifies one call of a tool. The fields of a request go with every log line and
every span of the call, so its attributes have to be texts before there is anything to log.
-/

set_option autoImplicit false
set_option relaxedAutoImplicit false

namespace QueryGateway

open QueryGateway.Input

/-- A call of a tool: its number, the tool once it is known, and the texts of further attributes. -/
structure Request where
  id : String
  tool : Option String := none
  attributes : List (String × String) := []
  deriving DecidableEq, Repr, Inhabited

namespace Request

/-- The fields of telemetry: the number, the tool unless it is empty, and the attributes. -/
def telemetry (r : Request) : Fields :=
  ("request_id", .text r.id) ::
    (match r.tool with
      | some t => if t.isEmpty then [] else [("tool", .text t)]
      | none => []) ++ r.attributes.map fun e => ("ctx." ++ e.1, .text e.2)

def loggerName (component : String) : String := "sqlgate." ++ component

end Request

/-- What a caller says about a call of a tool, its attributes being any values. -/
structure CallContext where
  id : String
  tool : Option String := none
  attributes : Fields := []
  deriving Repr, Inhabited

namespace CallContext

/-- Fields as texts, those without a value left out. One that cannot be written fails them all. -/
def texts : Fields → Except Failure (List (String × String))
  | [] => .ok []
  | (_, .null) :: fields => texts fields
  | (name, v) :: fields => do
    let s ← Failure.written (Value.Display.text? v)
    let rest ← texts fields
    return (name, s) :: rest

def request (c : CallContext) : Except Failure Request :=
  (texts c.attributes).map fun attributes => ⟨c.id, c.tool, attributes⟩

def ofFields (fields : Fields) : Checked CallContext :=
  CallContext.mk <$> Coercion.required ["request_id"] Coercion.text fields
    <*> Coercion.withDefault none ["tool"] (Coercion.optional Coercion.text) fields
    <*> Coercion.withDefault [] ["attributes"] Coercion.object fields

end CallContext

end QueryGateway
