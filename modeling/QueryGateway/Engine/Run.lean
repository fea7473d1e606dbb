import QueryGateway.Engine.Pool
import QueryGateway.Plan.Compile

/-!
Plans carried out. Every attempt has a connection of its own; a transaction is committed when all of
its statements ran and rolled back at the first that fails. What fails for a passing reason is tried
again, unless the plan must not be repeated, and what is left is told as a fault.
-/

set_option autoImplicit false
set_option relaxedAutoImplicit false

namespace QueryGateway.Engine

open QueryGateway.Database
open QueryGateway.Number (Binary64)

/-- The longest text of a statement that a span shows. -/
def shownStatement : Nat := 4096

def statementAttribute (s : Statement) : String :=
  let text := Text.Blank.trim s.chars
  if shownStatement < text.length then
    String.ofList (text.take (shownStatement - 3) ++ ['.', '.', '.'])
  else String.ofList text

def spanAttributes (e : Engine) (plan : Plan) (request : Option Request) : Fields :=
  [("db.system", .text e.platform),
   ("db.name", if e.settings.database.isEmpty then .null else .text e.settings.database),
   ("db.operation", .text plan.kind.text),
   ("db.statement.count", .int plan.statements.length),
   ("sqlgate.plan.transactional", .bool plan.transactional)] ++
    (match plan.statements with
      | s :: _ => [("db.statement", .text (statementAttribute s))]
      | [] => []) ++
    (match plan.table with
      | some t => if t.isEmpty then [] else [("db.sql.table", .text t)]
      | none => []) ++
    match request with
    | some r => [("sqlgate.request_id", .text r.id)]
    | none => []

def runStatements (e : Engine) (connection : Nat) (result : Result) :
    List Statement → Attempt Result
  | [] => pure result
  | s :: rest => do
    let outcome ← e.execute connection s
    runStatements e connection (result.adding outcome) rest

/-- Carries out a plan without a transaction of its own, and commits at the end. -/
def runSingle (e : Engine) (connection : Nat) (plan : Plan) : Attempt Result := do
  let result ← e.runStatements connection { kind := plan.kind } plan.statements
  let _ ← call .commit (.commit connection)
  return result

/-- The fault of a step of a transaction: that of its failure, told with the step. -/
def stepFault (number : Nat) (description : String) (g : Fault) : Fault :=
  { category := g.category
    code := g.code
    message := description ++ " failed: " ++ g.message
    hint := g.hint
    details := g.details.put "step" (.int number)
    retryable := g.retryable }

def runStep (e : Engine) (request : Request) (connection number : Nat) (s : Statement) :
    Attempt StatementResult := do
  logFor request .debug ("Executing: " ++ s.description) []
  let outcome ← ExceptT.lift (e.execute connection s).run
  match outcome with
  | .ok r => return r
  | .error f => do
    let g ← orFailure (e.faultOf f)
    logFor request .warning "Transaction rolled back" [("step", .text (toString number))]
    throw (Failure.causedBy (stepFault number s.description g) f)

/-- Carries out the steps of a transaction from a number on, adding to a result. -/
def runSteps (e : Engine) (request : Request) (connection : Nat) (result : Result) :
    Nat → List Statement → Attempt Result
  | _, [] => pure result
  | number, s :: rest => do
    let outcome ← e.runStep request connection number s
    runSteps e request connection (result.addingStep number s.description outcome) (number + 1) rest

def runTransaction (e : Engine) (request : Request) (connection : Nat) (plan : Plan) :
    Attempt Result := do
  logFor request .info
    ("Transaction started with " ++ toString plan.statements.length ++ " statement(s)") []
  let result ← inTransaction connection
    (e.runSteps request connection { kind := plan.kind } 1 plan.statements)
  logFor request .info "Transaction committed" []
  return result

def runOn (e : Engine) (request : Request) (plan : Plan) (connection : Nat) : Attempt Result :=
  match plan.inquiry with
  | some inquiry => do
    let info ← e.inspect connection inquiry
    return { kind := plan.kind, info := info }
  | none =>
    if plan.transactional then e.runTransaction request connection plan
    else e.runSingle connection plan

/-- One attempt to carry out a plan, whatever fails told as a fault if it can be. -/
def attempt (e : Engine) (request : Request) (plan : Plan) : Run (Except Failure Result) := do
  let outcome ← (e.withConnection (e.runOn request plan)).run
  return outcome.mapError e.told

structure FailedAttempt where
  number : Nat
  failure : Failure

/-- How often a plan is attempted, and how long the waits are. -/
def policyFor (e : Engine) (plan : Plan) : RetryPolicy Binary64 :=
  ⟨if plan.retryable then e.settings.maxRetries else 1, e.settings.retryDelay⟩

/-- The fields of every log record about a plan. -/
def planFields (e : Engine) (plan : Plan) : Fields :=
  [("operation_type", .text plan.kind.text), ("db.platform", .text e.platform)]

def retryWarning (e : Engine) (request : Request) (plan : Plan) (number : Nat) (delay : Binary64)
    (a : FailedAttempt) : Run Unit :=
  logFor request .warning
    (plan.kind.text ++ " failed (attempt " ++ toString number ++ "/" ++
      toString (e.policyFor plan).maxAttempts ++ "), retrying in " ++ waitText delay)
    (e.planFields plan ++ [("error", .text (a.failure.text.toOption.getD ""))])

/-- How attempts of a plan are repeated: where the failure may be tried again. What an attempt fails
with always has a text and tells whether it may be tried again, so nothing is lost here. -/
def planRetry (e : Engine) (request : Request) (plan : Plan) : Retry Run FailedAttempt Binary64 :=
  { policy := e.policyFor plan
    times := fun unit n => .ok (unit.times n)
    admits := fun a => a.failure.isRetryable.toOption.getD false
    announce := e.retryWarning request plan
    wait := wait }

def numberedAttempt (e : Engine) (request : Request) (plan : Plan) (number : Nat) :
    Run (Except FailedAttempt Result) := do
  match ← e.attempt request plan with
  | .ok r => return .ok { r with attempts := number }
  | .error f => return .error ⟨number, f⟩

def reportFailure (e : Engine) (request : Request) (plan : Plan) (a : FailedAttempt) : Run Unit :=
  match a.failure.fault? with
  | some g =>
    logFor request .error
      (plan.kind.text ++ " failed after " ++ toString a.number ++ " attempt(s)")
      (e.planFields plan ++ [("error", .text g.text), ("error_code", .text g.code.text)])
  | none => pure ()

/-- Tells the result of a plan in the log, where the number of affected rows has to be written. -/
def reportResult (e : Engine) (request : Request) (plan : Plan) (result : Result) :
    Attempt Unit := do
  let fields := e.planFields plan
  if 1 < result.attempts then
    logFor request .info
      (plan.kind.text ++ " succeeded on attempt " ++ toString result.attempts ++ "/" ++
        toString (e.policyFor plan).maxAttempts) fields
  let affected ← orFailure (Failure.written (Value.Display.text? (.int result.affectedRows)))
  logFor request .info "Plan executed"
    (fields ++ [("affected_rows", .text affected),
      ("row_count", .text (toString result.rows.length))])

/-- Carries out a plan in as many attempts as it takes and is allowed. -/
def runWithRetry (e : Engine) (request : Request) (plan : Plan) : Attempt Result := do
  match ← ExceptT.lift ((e.planRetry request plan).run (e.numberedAttempt request plan)) with
  | .error a => do
    e.reportFailure request plan a
    throw a.failure
  | .ok result => do
    e.reportResult request plan result
    return result

/-- Whether a plan only asks whether the database can be reached. -/
def isPing (plan : Plan) : Bool :=
  match plan.inquiry with
  | some (.utility .ping _) => true
  | _ => false

/-- The result of asking whether the database can be reached. -/
def ping (e : Engine) (request : Request) (plan : Plan) : Attempt Result := do
  let reached ← e.testConnection request
  return { kind := plan.kind, info := [("connected", .bool reached)] }

def run (e : Engine) (request : Request) (plan : Plan) : Attempt Result :=
  inSpan (Telemetry.callSpan "sqlgate.engine.run_plan" []
      (e.spanAttributes plan (some request)).entries)
    (if isPing plan then e.ping request plan else e.runWithRetry request plan)

/-- The plan of an operation, with a log record about how compiling went. -/
def prepare (request : Request) (op : Operation) : Attempt Plan := do
  let write (level : Log.Level) (message : String) (fields : Fields) : Run Unit :=
    log level (Request.loggerName "compiler") message (request.telemetry.update fields)
  let kind := op.kind.text
  match Plan.ofOperation op with
  | .error f =>
    if let some g := f.fault? then
      write .warning ("Compilation of " ++ kind ++ " operation failed: " ++ g.message)
        [("operation_type", .text kind), ("error_code", .text g.code.text)]
    throw f
  | .ok plan =>
    write .debug
      ("Compiled " ++ kind ++ " operation into " ++ toString plan.statements.length ++
        " statement(s)")
      [("operation_type", .text kind), ("table", .ofText? plan.table)]
    return plan

end QueryGateway.Engine
