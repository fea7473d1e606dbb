import QueryGateway.Engine.Statement
import QueryGateway.Value.Json

/-!
Envelopes: what a caller gets to see of a result. Each kind of operation has a form of its own; all
of them say that they are a success, and hold nothing that JSON has no kind for.
-/

set_option autoImplicit false
set_option relaxedAutoImplicit false

namespace QueryGateway.Tool.Envelope

open QueryGateway.Engine (Result StepResult)

def rowList (rows : List Fields) : Value := .list (rows.map .object)

/-- A step of a transaction; the number of a new row is left out if there is none. -/
def step (s : StepResult) : Value :=
  .object
    ([("step", .int s.step), ("description", .text s.description),
      ("affectedRows", .int s.affectedRows)] ++
      match s.insertId with
      | some id => [("insertedId", .int id)]
      | none => [])

def steps (r : Result) : Value := .list (r.steps.map step)

def affected (r : Result) : String × Value := ("affectedRows", .int r.affectedRows)

/-- The entry of the number of a new row. -/
def inserted (r : Result) : String × Value := ("insertedId", .ofInt? r.insertId)

def table (name : String) : String × Value := ("table", .text name)

/-- The answer to an inquiry under some name, an empty list if there is none. -/
def told (r : Result) (name : String) : Value := (r.info.get? name).getD (.list [])

def count (r : Result) : String × Value := ("count", .int r.rows.length)

/-- What is said about a change of the schema. -/
def changeMessage (op : Operation) (r : Result) : String :=
  (match r.steps with
    | s :: _ => s.description
    | [] => op.kind.text) ++ " completed successfully"

def bulkMessage (records : Nat) (table : String) : String :=
  "Successfully inserted " ++ toString records ++ " records into " ++ table

/-- The part of an envelope that a utility action fills; a moment is told with the answer to whether
the database can be reached. -/
def utility (now : String) (action : UtilityAction) (table : Option String) (r : Result) : Fields :=
  match action with
  | .ping =>
    [("connected", .bool ((r.info.get? "connected").getD .null).isTruthy), ("timestamp", .text now)]
  | .describeTable => [("table", .ofText? table), ("structure", told r "columns")]
  | .version | .stats => r.info

def body (now : String) (op : Operation) (r : Result) : Fields :=
  match op with
  | .list none => [("tables", told r "tables")]
  | .list (some t) =>
    if t.isEmpty then [("tables", told r "tables")] else [table t, ("columns", told r "columns")]
  | .read q => [table q.table, count r, ("data", rowList r.rows)]
  | .create t _ => [table t, inserted r, affected r]
  | .update t _ _ => [table t, affected r]
  | .delete t _ => [table t, affected r]
  | .bulkInsert t records =>
    [table t, ("recordCount", .int records.length), affected r, inserted r,
     ("message", .text (bulkMessage records.length t))]
  | .execute query _ _ =>
    ("query", .text query) ::
      if r.returnsRows then [("results", rowList r.rows), count r] else [affected r, inserted r]
  | .ddl statement => [("statement", .text statement), affected r]
  | .transaction operations =>
    [("operations", .int operations.length), affected r, ("results", steps r)]
  | .utility action t => ("action", .text action.text) :: utility now action t r
  | op =>
    [("table", .ofText? op.target), ("message", .text (changeMessage op r)), ("results", steps r)]

def ofResult (now : String) (op : Operation) (r : Result) : Fields :=
  Value.portableEntries (("success", .bool true) :: body now op r)

end QueryGateway.Tool.Envelope
