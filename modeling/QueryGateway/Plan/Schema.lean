import QueryGateway.Plan
import QueryGateway.Sql.Name

/-!
Plans that change the schema. They run in a transaction and are not repeated. A table of a
protected schema is refused before anything else is looked at.
-/

set_option autoImplicit false
set_option relaxedAutoImplicit false

namespace QueryGateway.Plan

open QueryGateway.Sql

def alteration (kind : OperationKind) (table : Name) (fragments : List Fragment)
    (description : String) (prechecks : List Precheck) : Plan :=
  { kind := kind
    statements :=
      [{ fragments := fragments, description := description, prechecks := prechecks }]
    transactional := true
    retryable := false
    table := some table.text }

def openTable (table : String) : Except Failure Name := do
  Protected.guardTable table
  Name.ofText .table table

def placementClause : Option Placement → Except Failure (List Fragment)
  | none => .ok []
  | some .first => .ok [.words " FIRST"]
  | some (.after column) => do
    let column ← Name.ofText .column column
    return [.words " AFTER ", .name column]

def alterTable (table : Name) (change : String) : List Fragment :=
  [.words "ALTER TABLE ", .name table, .words change]

def ofAddColumn (table : String) (column : NamedColumn) (position : Option Placement) :
    Except Failure Plan := do
  let table ← openTable table
  let definition ← column.spec.define (.text column.name)
  let place ← placementClause position
  return alteration .addColumn table (alterTable table " ADD COLUMN " ++ definition ++ place)
    ("Add column '" ++ column.name ++ "' to table '" ++ table.text ++ "'") []

def ofDropColumn (table column : String) : Except Failure Plan := do
  let table ← openTable table
  let column ← Name.ofText .column column
  return alteration .dropColumn table (alterTable table " DROP COLUMN " ++ [.name column])
    ("Drop column '" ++ column.text ++ "' from table '" ++ table.text ++ "'")
    [.tableExists table.text, .columnExists table.text column.text]

def ofModifyColumn (table column : String) (definition : ColumnSpec) : Except Failure Plan := do
  let table ← openTable table
  let column ← Name.ofText .column column
  let definition ← definition.define (.text column.text)
  return alteration .modifyColumn table (alterTable table " MODIFY COLUMN " ++ definition)
    ("Modify column '" ++ column.text ++ "' in table '" ++ table.text ++ "'") []

def renameChange (old new : Name) : Option ColumnSpec → Except Failure (List Fragment)
  | none => .ok [.words "RENAME COLUMN ", .name old, .words " TO ", .name new]
  | some definition => do
    let definition ← definition.define (.text new.text)
    return [.words "CHANGE COLUMN ", .name old, .words " "] ++ definition

def ofRenameColumn (table old new : String) (definition : Option ColumnSpec) :
    Except Failure Plan := do
  let table ← openTable table
  let old ← Name.ofText .column old
  let new ← Name.ofText .column new
  let change ← renameChange old new definition
  return alteration .renameColumn table (alterTable table " " ++ change)
    ("Rename column '" ++ old.text ++ "' to '" ++ new.text ++ "' in table '" ++ table.text ++ "'")
    [.tableExists table.text, .columnExists table.text old.text,
     .columnAbsent table.text new.text]

def ofRenameTable (old new : String) : Except Failure Plan := do
  Protected.guardTable old
  Protected.guardTable new
  let old ← Name.ofText .table old
  let new ← Name.ofText .table new
  return alteration .renameTable old (alterTable old " RENAME TO " ++ [.name new])
    ("Rename table '" ++ old.text ++ "' to '" ++ new.text ++ "'")
    [.tableExists old.text, .tableAbsent new.text]

def indexWords (method : Option IndexMethod) (unique : Bool) : Except Failure (String × String) :=
  let plain := if unique then "UNIQUE " else ""
  let special (m : IndexMethod) : Except Failure (String × String) :=
    if unique then .error (Failure.invalid (m.text ++ " indexes cannot be UNIQUE") "unique")
    else .ok (m.text ++ " ", "")
  match method with
  | none => .ok (plain, "")
  | some .fulltext => special .fulltext
  | some .spatial => special .spatial
  | some m => .ok (plain, " USING " ++ m.text)

def indexColumns (columns : List String) : Except Failure (List Name) :=
  if columns.isEmpty then
    .error (Failure.invalid "Index requires at least one column" "columns" .null .missingParameter)
  else columns.mapM (Name.ofText .column)

def ofAddIndex (r : IndexRequest) : Except Failure Plan := do
  let table ← openTable r.table
  let name ← Name.ofText .index r.name
  let columns ← indexColumns r.columns
  let (front, back) ← indexWords r.method r.unique
  return alteration .addIndex table
    ([.words ("CREATE " ++ front ++ "INDEX "), .name name, .words " ON ", .name table,
      .words " ("] ++ Fragment.names columns ++ [.words (")" ++ back)])
    ("Add index '" ++ name.text ++ "' on table '" ++ table.text ++ "'") []

def ofDropIndex (table name : String) : Except Failure Plan := do
  let table ← openTable table
  let name ← Name.ofText .index name
  return alteration .dropIndex table
    [.words "DROP INDEX ", .name name, .words " ON ", .name table]
    ("Drop index '" ++ name.text ++ "' from table '" ++ table.text ++ "'") []

end QueryGateway.Plan
