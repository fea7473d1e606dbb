import QueryGateway.Operation

/-!
Operations as records: every field under its name, those that were not given with their defaults.
-/

set_option autoImplicit false
set_option relaxedAutoImplicit false

namespace QueryGateway.Operation

open QueryGateway.Sql (ColumnSpec NamedColumn)

def textList (xs : List String) : Value := .list (xs.map .text)

def ofFields? : Option Fields → Value
  | some fields => .object fields
  | none => .null

def specRecord (s : ColumnSpec) : Fields :=
  [("type", .text s.type), ("nullable", (s.nullable.map .bool).getD .null),
   ("default", s.default.getD .null), ("auto_increment", .bool s.autoIncrement),
   ("comment", .ofText? s.comment)]

def columnRecord (c : NamedColumn) : Fields := specRecord c.spec ++ [("name", .text c.name)]

def placementRecord : Placement → Fields
  | .first => [("first", .bool true), ("after", .null)]
  | .after c => [("first", .bool false), ("after", .text c)]

mutual

def parts : Operation → Fields
  | .read r =>
    [("table", .text r.table), ("columns", (r.columns.map textList).getD .null),
     ("where", ofFields? r.filter), ("order_by", .ofText? r.ordering),
     ("limit", .ofInt? r.limit), ("offset", .ofInt? r.offset)]
  | .create table data => [("table", .text table), ("data", .object data)]
  | .update table data filter =>
    [("table", .text table), ("data", .object data), ("where", ofFields? filter)]
  | .delete table filter => [("table", .text table), ("where", ofFields? filter)]
  | .bulkInsert table records =>
    [("table", .text table), ("records", .list (records.map .object))]
  | .execute query params allowWrite =>
    [("query", .text query), ("params", (params.map .list).getD .null),
     ("allow_write", .bool allowWrite)]
  | .ddl statement => [("statement", .text statement)]
  | .addColumn table column position =>
    [("table", .text table), ("column", .object (columnRecord column)),
     ("position", ofFields? (position.map placementRecord))]
  | .dropColumn table column => [("table", .text table), ("column", .text column)]
  | .modifyColumn table column definition =>
    [("table", .text table), ("column", .text column),
     ("new_definition", .object (specRecord definition))]
  | .renameColumn table oldName newName definition =>
    [("table", .text table), ("old_name", .text oldName), ("new_name", .text newName),
     ("new_definition", ofFields? (definition.map specRecord))]
  | .renameTable oldName newName => [("old_name", .text oldName), ("new_name", .text newName)]
  | .addIndex r =>
    [("table", .text r.table), ("name", .text r.name), ("columns", textList r.columns),
     ("index_type", .ofText? (r.method.map IndexMethod.text)), ("unique", .bool r.unique)]
  | .dropIndex table name => [("table", .text table), ("name", .text name)]
  | .transaction steps => [("operations", .list (stepRecords steps))]
  | .list table => [("table", .ofText? table)]
  | .utility action table => [("action", .text action.text), ("table", .ofText? table)]

def stepRecord : TransactionStep → Value
  | .described fields => .object fields
  | .given op => .object (("type", .text op.kind.text) :: parts op)

def stepRecords : List TransactionStep → List Value
  | [] => []
  | step :: steps => stepRecord step :: stepRecords steps

end

def record (op : Operation) : Fields := ("type", .text op.kind.text) :: op.parts

end QueryGateway.Operation
