import QueryGateway.Operation.Reader
import QueryGateway.Plan.Rows
import QueryGateway.Plan.Schema
import QueryGateway.Sql.Token

/-!
The plan of an operation. A transaction is compiled step by step before anything runs, so a step
that does not compile leaves nothing half done.
-/

set_option autoImplicit false
set_option relaxedAutoImplicit false

namespace QueryGateway.Plan

open QueryGateway.Sql

/-- The plan of a query that the caller wrote, which needs a parameter for each of its marks. -/
def ofExecute (query : String) (params : Option (List Value)) (allowWrite : Bool) :
    Except Failure Plan := do
  let query ← Screening.query allowWrite (.text query)
  let params := params.getD []
  let expected ← Placeholder.count query.toList
  if expected != params.length then
    throw (Failure.invalid
      ("Query has " ++ toString expected ++ " placeholders but " ++ toString params.length ++
        " parameters were supplied") "params" .null .missingParameter)
  return {
    kind := .execute
    statements :=
      [{ fragments := [.raw query], params := params, description := "Execute query" }] }

def ofDdl (statement : String) : Except Failure Plan := do
  let statement ← Screening.schemaStatement (.text statement)
  return {
    kind := .ddl
    statements := [{ fragments := [.raw statement], description := "Execute DDL statement" }] }

def ofList : Option String → Except Failure Plan
  | none => .ok { kind := .list, inquiry := some .tables }
  | some table => do
    let table ← Name.ofText .table table
    return { kind := .list, table := some table.text, inquiry := some (.columns table.text) }

def describedTable (table : Option String) : Except Failure Name :=
  let missing := Failure.invalid "Table name required for describe_table" "table" .null
    .missingParameter
  match table with
  | some t => if t.isEmpty then .error missing else Name.ofText .table t
  | none => .error missing

def ofUtility (action : UtilityAction) (table : Option String) : Except Failure Plan :=
  match action with
  | .describeTable => do
    let table ← describedTable table
    return {
      kind := .utility
      table := some table.text
      inquiry := some (.utility .describeTable (some table.text)) }
  | action => .ok { kind := .utility, inquiry := some (.utility action none) }

def ofSimple : Operation → Except Failure Plan
  | .read r => ofRead r
  | .create table data => ofCreate table data
  | .update table data filter => ofUpdate table data filter
  | .delete table filter => ofDelete table filter
  | .bulkInsert table records => ofBulkInsert table records
  | .execute query params allowWrite => ofExecute query params allowWrite
  | .ddl statement => ofDdl statement
  | .addColumn table column position => ofAddColumn table column position
  | .dropColumn table column => ofDropColumn table column
  | .modifyColumn table column definition => ofModifyColumn table column definition
  | .renameColumn table old new definition => ofRenameColumn table old new definition
  | .renameTable old new => ofRenameTable old new
  | .addIndex r => ofAddIndex r
  | .dropIndex table name => ofDropIndex table name
  | .list table => ofList table
  | .utility action table => ofUtility action table
  | .transaction _ =>
    .error (Failure.invalid "Nested transactions are not supported" "type")

/-- The plan of an operation as a step of a transaction, which has to be of a fitting kind. -/
def ofSuited (op : Operation) : Except Failure Plan :=
  match op.kind with
  | .transaction => .error (Failure.invalid "Nested transactions are not supported" "type")
  | kind =>
    if kind.isStep then ofSimple op
    else
      .error (Failure.invalid ("Unsupported operation type in transaction: " ++ kind.text) "type"
        (.text kind.text) .validation
        (some "Transactions accept create, update, delete, bulk_insert and execute steps"))

def operationOf : TransactionStep → Except Failure Operation
  | .described fields => Operation.ofFields fields
  | .given op => .ok op

def ofStep (step : TransactionStep) : Except Failure Plan := do
  let op ← operationOf step
  ofSuited op

def stepFault (number : Nat) (f : Fault) : Fault :=
  { category := f.category
    code := f.code
    message := "Transaction step " ++ toString number ++ ": " ++ f.message
    hint := f.hint
    details := f.details.put "step" (.int number)
    retryable := f.category.retryable }

/-- The failure of a step: a fault is told with the number of the step, anything else goes on. -/
def stepFailure (number : Nat) (f : Failure) : Failure :=
  match f.fault? with
  | some g => Failure.causedBy (stepFault number g) f
  | none => f

def stepStatement (number : Nat) (s : Statement) : Statement :=
  { s with description := "Step " ++ toString number ++ ": " ++ s.description }

def ofSteps : Nat → List TransactionStep → Except Failure (List Statement)
  | _, [] => .ok []
  | number, step :: steps =>
    match ofStep step with
    | .error f => .error (stepFailure number f)
    | .ok plan => do
      let rest ← ofSteps (number + 1) steps
      return plan.statements.map (stepStatement number) ++ rest

def ofTransaction (steps : List TransactionStep) : Except Failure Plan :=
  if steps.isEmpty then
    .error (Failure.invalid "Transaction must contain at least one operation" "operations" .null
      .missingParameter)
  else do
    let statements ← ofSteps 1 steps
    return { kind := .transaction, statements := statements, transactional := true }

def ofOperation : Operation → Except Failure Plan
  | .transaction steps => ofTransaction steps
  | op => ofSimple op

def ofValue (v : Value) : Except Failure Plan := (Operation.ofValue v).bind ofOperation

end QueryGateway.Plan
