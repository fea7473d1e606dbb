import QueryGateway.Engine
import QueryGateway.Operation
import QueryGateway.Plan
import QueryGateway.Sql.Token

/-!
Statements carried out, and what comes of them.
-/

set_option autoImplicit false
set_option relaxedAutoImplicit false

/-!
## Results

Results of plans: what the database reported, statement by statement and in all.
-/

namespace QueryGateway.Engine

structure StatementResult where
  affectedRows : Int := 0
  insertId : Option Int := none
  rows : Option (List Fields) := none
  deriving Repr

/-- What one statement of a transaction gave, with its number and description. -/
structure StepResult where
  step : Nat
  description : String
  affectedRows : Int
  insertId : Option Int
  deriving DecidableEq, Repr

structure Result where
  kind : OperationKind
  affectedRows : Int := 0
  insertId : Option Int := none
  rows : List Fields := []
  returnsRows : Bool := false
  steps : List StepResult := []
  info : Fields := []
  attempts : Nat := 1
  deriving Repr

namespace Result

/-- The result of a plan so far together with what another statement gave. -/
def adding (r : Result) (s : StatementResult) : Result :=
  { r with
    affectedRows := r.affectedRows + s.affectedRows
    insertId := s.insertId.orElse fun _ => r.insertId
    rows := s.rows.getD r.rows
    returnsRows := r.returnsRows || s.rows.isSome }

/-- The result of a plan so far together with a numbered step. -/
def addingStep (r : Result) (number : Nat) (description : String) (s : StatementResult) : Result :=
  let t := r.adding s
  { t with steps := t.steps ++ [⟨number, description, s.affectedRows, s.insertId⟩] }

end Result

end QueryGateway.Engine

/-!
## Statements

Statements carried out on a connection. The conditions of a statement on the schema are checked
before it runs; marks of parameters are written the way the driver wants them.
-/

namespace QueryGateway.Engine

open QueryGateway.Database
open QueryGateway.Settings (lower)

def missingTable (table : String) : Fault :=
  Fault.notFound ("Table '" ++ table ++ "' does not exist") "table" table
    (some "Use the 'list' tool to see available tables")

def missingColumn (table column : String) : Fault :=
  Fault.notFound ("Column '" ++ column ++ "' does not exist in table '" ++ table ++ "'") "column"
    column (some "Use 'describe_table' to see available columns")

def existingTable (table : String) : Fault :=
  Fault.conflicting ("Table '" ++ table ++ "' already exists") "table" table

def existingColumn (table column : String) : Fault :=
  Fault.conflicting ("Column '" ++ column ++ "' already exists in table '" ++ table ++ "'")
    "column" column

def unknownTable (table : String) : Failure := .ofText (.toolkit "NoSuchTableError") table

def hasColumn (s : Server) (table column : String) : Except Failure Bool :=
  match s.table? table with
  | some t => .ok (t.columns.any fun c => lower c.name == lower column)
  | none => .error (unknownTable table)

/-- Goes on if something holds, and else fails with a fault. -/
def expect (holds : Bool) (f : Fault) : Except Failure Unit :=
  if holds then .ok () else .error (.ofFault f)

/-- Whether a condition holds of a database, and the failure if not. -/
def checkOne (s : Server) : Precheck → Except Failure Unit
  | .tableExists t => expect (s.hasTable t) (missingTable t)
  | .tableAbsent t => expect (!s.hasTable t) (existingTable t)
  | .columnExists t c => (hasColumn s t c).bind fun found => expect found (missingColumn t c)
  | .columnAbsent t c => (hasColumn s t c).bind fun found => expect (!found) (existingColumn t c)

/-- Checks conditions in order and reports the first that does not hold. -/
def checkAll (s : Server) : List Precheck → Except Failure Unit
  | [] => .ok ()
  | p :: ps =>
    match checkOne s p with
    | .ok _ => checkAll s ps
    | .error f => .error f

/-- The number of a new row: none where the driver gives none or a zero. -/
def insertIdOf (reply : Reply) : Except Failure (Option Int) :=
  if reply.insertId.isTruthy then (Value.Whole.ofValue reply.insertId).map some else .ok none

def resultOf (reply : Reply) : Except Failure StatementResult :=
  match reply.rows with
  | some rows => .ok { rows := some rows }
  | none =>
    (insertIdOf reply).map fun id =>
      { affectedRows := max (reply.rowCount.getD 0) 0, insertId := id }

def renderedFor (d : Dialect) (sql : List Char) : Except Failure String :=
  (Sql.Placeholder.render d.parameterStyle sql).map String.ofList

def execute (e : Engine) (connection : Nat) (s : Statement) : Attempt StatementResult := do
  orFailure (checkAll e.server s.prechecks)
  if s.params.isEmpty then
    let reply ← call .execute (.execute connection s.sql none)
    orFailure (resultOf reply)
  else
    let sql ← orFailure (renderedFor e.server.dialect s.chars)
    let reply ← call .execute (.execute connection sql (some s.params))
    orFailure (resultOf reply)

end QueryGateway.Engine
