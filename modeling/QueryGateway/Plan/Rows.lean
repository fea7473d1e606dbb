import QueryGateway.Plan
import QueryGateway.Sql.Fragment

/-!
Plans that read and write rows. Names are checked and quoted, values become parameters, and no row
is changed or removed without a filter.
-/

set_option autoImplicit false
set_option relaxedAutoImplicit false

namespace QueryGateway.Plan

open QueryGateway.Sql

/-- Whether a column may hold a value: lists and objects it may not. -/
def isStorable : Value → Bool
  | .object _ | .list _ | .tuple _ => false
  | _ => true

def columnOfEntry (entry : String × Value) : Except Failure Name := do
  let column ← Name.ofText .column entry.1
  if isStorable entry.2 then return column
  else
    throw (Failure.invalid ("Unsupported value type for column '" ++ entry.1 ++ "'") entry.1
      (.text entry.2.kindName))

def columnsOf (field : String) (row : Fields) : Except Failure (List Name) :=
  if row.isEmpty then
    .error (Failure.invalid (field ++ " must contain at least one column") field .null
      .missingParameter)
  else row.mapM columnOfEntry

def valuesOf (row : Fields) : List Value := row.map (·.2)

def requiredFilter (verb : String) (filter : Option Fields) : Except Failure Filter :=
  match filter with
  | some (e :: es) => Filter.ofFields (e :: es)
  | _ =>
    .error (Failure.invalid ("WHERE clause is required for " ++ verb ++ " operations") "where" .null
      .missingParameter
      (some ("Provide a non-empty 'where' object to limit the rows a " ++ verb ++ " affects")))

def single (kind : OperationKind) (table : Name) (statement : Statement) : Plan :=
  { kind := kind, statements := [statement], table := some table.text }

/-- The most rows that a reading may ask for. -/
def maxRows : Int := 10000

def checkLimit : Option Int → Except Failure (Option Int)
  | none => .ok none
  | some n =>
    if 1 ≤ n && n ≤ maxRows then .ok (some n)
    else
      .error (Failure.invalid "Invalid limit value. Must be between 1 and 10000" "limit" (.int n))

/-- The number of rows that a reading skips, which is going to be written. -/
def checkOffset : Option Int → Except Failure (Option Int)
  | none => .ok none
  | some n =>
    if n < 0 then
      .error (Failure.invalid "Invalid offset value. Must be non-negative" "offset" (.int n))
    else (Failure.written (Value.Display.text? (.int n))).map fun _ => some n

def numbered (keyword : String) (n : Int) : Fragment :=
  .words (keyword ++ String.ofList (Number.Numeral.ofInt n))

/-- The clauses that cut rows off; skipping rows needs a limit. -/
def window (limit offset : Option Int) : List Fragment :=
  match limit, offset with
  | none, none => []
  | some l, none => [numbered " LIMIT " l]
  | none, some o =>
    if o = 0 then [] else [numbered " LIMIT " maxRows, numbered " OFFSET " o]
  | some l, some o =>
    if o = 0 then [numbered " LIMIT " l] else [numbered " LIMIT " l, numbered " OFFSET " o]

def projection : Option (List String) → Except Failure (List Fragment)
  | some (c :: cs) => do
    let columns ← (c :: cs).mapM (Name.ofText .column)
    return Fragment.names columns
  | _ => .ok [.words "*"]

def readingFilter : Option Fields → Except Failure Filter
  | some fields => Filter.ofFields fields
  | none => .ok []

def orderingClause : Option String → Except Failure (List Fragment)
  | none => .ok []
  | some s =>
    if s.isEmpty then .ok []
    else do
      let terms ← OrderTerm.listOfValue (.text s)
      return .words " ORDER BY " :: OrderTerm.listFragments terms

def ofRead (r : ReadRequest) : Except Failure Plan := do
  let table ← Name.ofText .table r.table
  let columns ← projection r.columns
  let filter ← readingFilter r.filter
  let ordering ← orderingClause r.ordering
  let limit ← checkLimit r.limit
  let offset ← checkOffset r.offset
  let filtering := if filter.isEmpty then [] else .words " " :: filter.clause
  return single .read table
    { fragments := .words "SELECT " :: columns ++ .words " FROM " :: .name table :: filtering ++
        ordering ++ window limit offset
      params := filter.params
      description := "Read from table '" ++ table.text ++ "'"
      returnsRows := true }

def insertion (table : Name) (columns : List Name) (count : Nat) : List Fragment :=
  .words "INSERT INTO " :: .name table :: .words " (" :: Fragment.names columns ++
    .words ") VALUES " ::
      Fragment.separated "," (List.replicate count (Fragment.marks columns.length))

def ofCreate (table : String) (data : Fields) : Except Failure Plan := do
  let table ← Name.ofText .table table
  let columns ← columnsOf "data" data
  return single .create table
    { fragments := insertion table columns 1
      params := valuesOf data
      description := "Insert into table '" ++ table.text ++ "'" }

def assignment (column : Name) : List Fragment := [.name column, .words " = ", .mark]

def ofUpdate (table : String) (data : Fields) (filter : Option Fields) : Except Failure Plan := do
  let table ← Name.ofText .table table
  let columns ← columnsOf "data" data
  let filter ← requiredFilter "UPDATE" filter
  return single .update table
    { fragments := .words "UPDATE " :: .name table :: .words " SET " ::
        Fragment.separated ", " (columns.map assignment) ++ .words " " :: filter.clause
      params := valuesOf data ++ filter.params
      description := "Update table '" ++ table.text ++ "'" }

def ofDelete (table : String) (filter : Option Fields) : Except Failure Plan := do
  let table ← Name.ofText .table table
  let filter ← requiredFilter "DELETE" filter
  return single .delete table
    { fragments := .words "DELETE FROM " :: .name table :: .words " " :: filter.clause
      params := filter.params
      description := "Delete from table '" ++ table.text ++ "'" }

def sameKeys (a b : Fields) : Bool :=
  a.keys.all (fun k => b.has k) && b.keys.all fun k => a.has k

def valuesFor (columns : List String) (row : Fields) : List Value :=
  columns.map fun c => (row.get? c).getD .null

/-- The values of a further row at a place in a list, after checking its keys and values. -/
def checkRecord (first : Fields) (place : Nat) (row : Fields) : Except Failure Unit := do
  let field := "records[" ++ toString place ++ "]"
  if !sameKeys first row then
    throw (Failure.invalid
      ("Record at index " ++ toString place ++ " has different structure than the first record")
      field .null .validation
      (some ("Every record needs exactly the columns: " ++ String.intercalate ", " first.keys)))
  if 0 < place then
    discard (columnsOf field row)

def checkRecords (first : Fields) : Nat → List Fields → Except Failure Unit
  | _, [] => .ok ()
  | place, row :: rows => do
    checkRecord first place row
    checkRecords first (place + 1) rows

/-- The plan that adds many rows by one statement; the first row gives the order of columns. -/
def ofBulkInsert (table : String) (records : List Fields) : Except Failure Plan := do
  let table ← Name.ofText .table table
  match records with
  | [] =>
    throw (Failure.invalid "Bulk insert data must be a non-empty array" "records" .null
      .missingParameter)
  | first :: _ =>
    let columns ← columnsOf "records[0]" first
    checkRecords first 0 records
    return single .bulkInsert table
      { fragments := insertion table columns records.length
        params := records.flatMap (valuesFor first.keys)
        description := "Bulk insert " ++ toString records.length ++ " records into table '" ++
          table.text ++ "'" }

end QueryGateway.Plan
