import QueryGateway.Engine.Statement
import QueryGateway.Value.Arithmetic

/-!
Inquiries about the database: its tables, the columns of a table, its version, and how much it
holds.
-/

set_option autoImplicit false
set_option relaxedAutoImplicit false

namespace QueryGateway.Engine

open QueryGateway.Database

def occupancy (e : Engine) : Fields :=
  [("connections", .int e.settings.connectionLimit)] ++
    match e.server.occupancy with
    | some o =>
      [("size", .int o.size), ("checked_out", .int o.checkedOut), ("checked_in", .int o.checkedIn),
       ("overflow", .int o.overflow)]
    | none => []

def describe (primaryKey : List String) (c : Column) : Value :=
  .object
    [("name", .text c.name), ("type", .text c.type), ("nullable", .bool c.nullable),
     ("default", c.default), ("key", .text (if primaryKey.contains c.name then "PRI" else "")),
     ("extra", .text (if c.autoIncrement then "auto_increment" else ""))]

def describeColumns (s : Server) (table : String) : Except Failure Fields :=
  match s.table? table with
  | some t => .ok [("columns", .list (t.columns.map (describe t.primaryKey)))]
  | none => .error (.ofFault (missingTable table))

def listTables (s : Server) : Fields :=
  [("tables", .list (s.tableNames.map fun n => .object [("name", .text n)]))]

def versionOf (s : Server) : Fields :=
  [("version", .text
    (if s.dialect.version.isEmpty then "Unknown" else String.intercalate "." s.dialect.version))]

/-- The statement that counts the tables of a database and estimates their rows. -/
def countStatement : String :=
  "SELECT COUNT(*), SUM(TABLE_ROWS) FROM information_schema.TABLES WHERE TABLE_SCHEMA = ?"

def lacking (part : String) : Failure := .ofText .missingKey part

def pairOf : List Value → Except Failure (Value × Value)
  | [a, b] => .ok (a, b)
  | row =>
    .error (Value.Whole.failure .unsuitableValue
      (if row.length < 2 then
        "not enough values to unpack (expected 2, got " ++ toString row.length ++ ")"
       else "too many values to unpack (expected 2)"))

/-- The number that a value counts as, zero for values that count as false. -/
def countOf (v : Value) : Except Failure Int := if v.isTruthy then Value.Whole.ofValue v else .ok 0

/-- The numbers of tables and rows, as the server estimates them. -/
def estimate (e : Engine) (connection : Nat) (database : String) : Attempt (Int × Int) := do
  let sql ← orFailure (renderedFor e.server.dialect countStatement.toList)
  let reply ← call .execute (.execute connection sql (some [.text database]))
  let row ← orFailure ((reply.single.map Except.ok).getD (.error (lacking "one")))
  let (tables, rows) ← orFailure (pairOf row)
  let tables ← orFailure (countOf tables)
  let rows ← orFailure (countOf rows)
  return (tables, rows)

/-- The rows of some tables, counted one table after another and added to a sum. -/
def countRows (connection : Nat) (sum : Value) : List String → Attempt Value
  | [] => pure sum
  | table :: tables => do
    let reply ← call .execute
      (.execute connection ("SELECT COUNT(*) FROM \"" ++ table ++ "\"") none)
    let v ← orFailure ((reply.scalar.map Except.ok).getD (.error (lacking "scalar")))
    let sum ← orFailure (sum.plus v)
    countRows connection sum tables

/-- The numbers of tables and rows, counted table by table. -/
def countAll (e : Engine) (connection : Nat) : Attempt (Int × Int) := do
  let sum ← countRows connection (.int 0) e.server.tableNames
  return (e.server.tableNames.length, ← orFailure (countOf sum))

/-- The numbers of tables and rows, and how the pool is occupied. -/
def stats (e : Engine) (connection : Nat) : Attempt Fields := do
  if e.settings.database.isEmpty then
    throw (Failure.invalid "No database selected" "database" .null .validation
      (some "Include a database name in the connection string"))
  let (tables, rows) ←
    if e.server.dialect.name == "mysql" then e.estimate connection e.settings.database
    else e.countAll connection
  return [("database", .text e.settings.database), ("tables", .int tables), ("rows", .int rows),
    ("pool", .object e.occupancy)]

/-- The answer to an inquiry. Whether the database can be reached is not asked on a connection, so
there is no answer to that here. -/
def inspect (e : Engine) (connection : Nat) : Inquiry → Attempt Fields
  | .tables => pure (listTables e.server)
  | .columns table => orFailure (describeColumns e.server table)
  | .utility .describeTable (some table) => orFailure (describeColumns e.server table)
  | .utility .version _ => pure (versionOf e.server)
  | .utility .stats _ => e.stats connection
  | .utility action _ =>
    throw (Failure.ofFault (Fault.ofClass .configuration
      ("Unknown introspection action: " ++ action.text)))

end QueryGateway.Engine
