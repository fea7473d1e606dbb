import QueryGateway.Failure
import QueryGateway.Input.Coercion
import QueryGateway.Operation
import QueryGateway.Text.LetterCase
import QueryGateway.Value.Pairs

/-!
Operations read from objects and from calls of tools.
-/

set_option autoImplicit false
set_option relaxedAutoImplicit false

/-!
## Objects

Operations read from objects with a type tag. Keys of two words may be written in either of two
ways; keys that mean nothing are ignored. Every issue of an object is reported at once.
-/

namespace QueryGateway.Operation

open QueryGateway.Input
open QueryGateway.Input.Coercion
open QueryGateway.Sql (ColumnSpec NamedColumn)

/-- The keys under which a field may be given, the preferred one first. -/
def keysOf : String → List String
  | "order_by" => ["orderBy", "order_by"]
  | "allow_write" => ["allowWrite", "allow_write"]
  | "auto_increment" => ["autoIncrement", "auto_increment"]
  | "new_definition" => ["newDefinition", "new_definition"]
  | "old_name" => ["oldName", "old_name"]
  | "new_name" => ["newName", "new_name"]
  | "index_type" => ["indexType", "index_type"]
  | "records" => ["records", "data"]
  | name => [name]

def needs {α : Type} (name : String) (read : Value → Checked α) (fields : Fields) : Checked α :=
  required (keysOf name) read fields

def takes {α : Type} (name : String) (read : Value → Checked α) (fields : Fields) :
    Checked (Option α) :=
  withDefault none (keysOf name) (optional read) fields

def flag (name : String) (fields : Fields) : Checked Bool :=
  withDefault false (keysOf name) truth fields

/-- The default of a column, which differs from none when it is given as null. -/
def givenDefault (v : Value) : Checked (Option Value) :=
  match v with
  | .null => .good (some .null)
  | v => some <$> scalar v

def specOf (fields : Fields) : Checked ColumnSpec :=
  ColumnSpec.mk <$> needs "type" text fields <*> takes "nullable" truth fields
    <*> withDefault none ["default"] givenDefault fields <*> flag "auto_increment" fields
    <*> takes "comment" text fields

def columnOf (fields : Fields) : Checked NamedColumn :=
  (fun spec name => ⟨name, spec⟩) <$> specOf fields <*> needs "name" text fields

def spec (v : Value) : Checked ColumnSpec := (objectOf "ColumnSpec" v).andThen specOf

def column (v : Value) : Checked NamedColumn := (objectOf "ColumnDefinition" v).andThen columnOf

def placementOf : Bool × Option String → Checked Placement
  | (true, none) => .good .first
  | (false, some column) => .good (.after column)
  | _ => .refuse "Value error, position requires exactly one of 'first' or 'after'"

def placement (v : Value) : Checked Placement :=
  (objectOf "ColumnPosition" v).andThen fun fields =>
    (Prod.mk <$> flag "first" fields <*> takes "after" text fields).andThen placementOf

def someTexts (v : Value) : Checked (List String) :=
  (listOf text v).andThen fun xs =>
    if xs.isEmpty then .refuse "List should have at least 1 item after validation, not 0"
    else .good xs

/-- A method of indexing. The letters of a text may be of any case, those of bytes may not. -/
def method (v : Value) : Checked IndexMethod :=
  let known := match v with
    | .text s => IndexMethod.ofText? (String.ofList (Text.LetterCase.upper s.toList))
    | v => (text v).value?.bind IndexMethod.ofText?
  match known with
  | some m => .good m
  | none => .refuse "Input should be 'BTREE', 'HASH', 'FULLTEXT' or 'SPATIAL'"

def action (v : Value) : Checked UtilityAction :=
  match (text v).value?.bind UtilityAction.ofText? with
  | some a => .good a
  | none => .refuse "Input should be 'ping', 'version', 'stats' or 'describe_table'"

def step (v : Value) : Checked TransactionStep :=
  match v with
  | .object fields => .good (.described fields)
  | _ =>
    .bad [⟨["dict[str,any]"], "Input should be a valid dictionary"⟩,
      ⟨["BaseOperation"], "Input should be a valid dictionary or instance of BaseOperation"⟩]

def ofKind (kind : OperationKind) (fields : Fields) : Checked Operation :=
  let name (key : String) : Checked String := needs key text fields
  match kind with
  | .read =>
    Operation.read <$> (ReadRequest.mk <$> name "table" <*> takes "columns" (listOf text) fields
      <*> takes "where" object fields <*> takes "order_by" text fields
      <*> takes "limit" integer fields <*> takes "offset" integer fields)
  | .create => Operation.create <$> name "table" <*> needs "data" object fields
  | .update =>
    Operation.update <$> name "table" <*> needs "data" object fields
      <*> takes "where" object fields
  | .delete => Operation.delete <$> name "table" <*> takes "where" object fields
  | .bulkInsert => Operation.bulkInsert <$> name "table" <*> needs "records" (listOf object) fields
  | .execute =>
    Operation.execute <$> name "query" <*> takes "params" Coercion.list fields
      <*> flag "allow_write" fields
  | .ddl => Operation.ddl <$> name "statement"
  | .addColumn =>
    Operation.addColumn <$> name "table" <*> needs "column" column fields
      <*> takes "position" placement fields
  | .dropColumn => Operation.dropColumn <$> name "table" <*> name "column"
  | .modifyColumn =>
    Operation.modifyColumn <$> name "table" <*> name "column" <*> needs "new_definition" spec fields
  | .renameColumn =>
    Operation.renameColumn <$> name "table" <*> name "old_name" <*> name "new_name"
      <*> takes "new_definition" spec fields
  | .renameTable => Operation.renameTable <$> name "old_name" <*> name "new_name"
  | .addIndex =>
    Operation.addIndex <$> (IndexRequest.mk <$> name "table" <*> name "name"
      <*> needs "columns" someTexts fields <*> takes "index_type" method fields
      <*> flag "unique" fields)
  | .dropIndex => Operation.dropIndex <$> name "table" <*> name "name"
  | .transaction =>
    Operation.transaction <$> withDefault [] ["operations"] (listOf step) fields
  | .list => Operation.list <$> takes "table" text fields
  | .utility => Operation.utility <$> needs "action" action fields <*> takes "table" text fields

def kindOfTag? : Value → Option OperationKind
  | .text s => OperationKind.ofText? s
  | _ => none

def tagText (tag : Value) : String :=
  (Value.Display.text? tag).getD ("<unprintable " ++ tag.kindName ++ " object>")

def check (fields : Fields) : Checked Operation :=
  match fields.get? "type" with
  | none => .refuse "Unable to extract tag using discriminator 'type'"
  | some tag =>
    match kindOfTag? tag with
    | some kind => (ofKind kind fields).within kind.text
    | none =>
      .refuse ("Input tag '" ++ tagText tag ++
        "' found using 'type' does not match any of the expected tags: " ++
        String.intercalate ", " (OperationKind.all.map fun k => "'" ++ k.text ++ "'"))

def ofFields (fields : Fields) : Except Failure Operation :=
  match check fields with
  | .good op => .ok op
  | .bad issues => do
    let tag := (fields.get? "type").getD .null
    let word ← Failure.written (Value.Display.text? tag)
    let front := if tag.isTruthy then "Invalid '" ++ word ++ "' operation" else "Invalid operation"
    throw (Failure.invalid (front ++ ": " ++ Issue.listText issues) "type" tag)

def ofValue : Value → Except Failure Operation
  | .object fields => ofFields fields
  | v => .error (Failure.invalid "Operation must be an object" "" (.text v.kindName))

def fieldNames : OperationKind → List String
  | .read => ["table", "columns", "where", "order_by", "limit", "offset"]
  | .create => ["table", "data"]
  | .update => ["table", "data", "where"]
  | .delete => ["table", "where"]
  | .bulkInsert => ["table", "records"]
  | .execute => ["query", "params", "allow_write"]
  | .ddl => ["statement"]
  | .addColumn => ["table", "column", "position"]
  | .dropColumn => ["table", "column"]
  | .modifyColumn => ["table", "column", "new_definition"]
  | .renameColumn => ["table", "old_name", "new_name", "new_definition"]
  | .renameTable => ["old_name", "new_name"]
  | .addIndex => ["table", "name", "columns", "index_type", "unique"]
  | .dropIndex => ["table", "name"]
  | .transaction => ["operations"]
  | .list => ["table"]
  | .utility => ["action", "table"]

def given (kind : OperationKind) (fields : Fields) : List String :=
  ("type" :: fieldNames kind).filter fun name => (keysOf name).any fields.has

end QueryGateway.Operation

/-!
## Calls of tools

Operations from calls of named tools. The name of the tool becomes the type tag, whatever tag the
arguments carry; only the tool that adds an index reads its own argument of that name.
-/

namespace QueryGateway.Operation

/-- The arguments of the tool that adds an index: its type is the method of the index. -/
def withMethod (fields : Fields) : Fields :=
  match fields.get? "type" with
  | none => fields
  | some v =>
    let rest := fields.erase "type"
    if rest.has "indexType" then rest else rest.put "indexType" v

def taggedFields (kind : OperationKind) (fields : Fields) : Fields :=
  (if kind = .addIndex then withMethod fields else fields).put "type" (.text kind.text)

def unknownTool (tool : String) : Fault :=
  Fault.invalid ("Unknown tool: " ++ tool) "tool" (some (Fault.cut tool.toList)) .unknownTool
    (some "Use one of the tools listed by the server")

def argumentsFailure (p : Value.Pairs.Problem) : Failure :=
  .ofText (.computation (match p with
    | .wrongLength _ _ => .unsuitableValue
    | _ => .unsuitableKind)) p.text

def ofTool (tool : String) (arguments : Value) : Except Failure Operation :=
  match OperationKind.ofText? tool with
  | none => .error (.ofFault (unknownTool tool))
  | some kind =>
    match Value.Pairs.fieldsOf arguments with
    | .error problem => .error (argumentsFailure problem)
    | .ok fields => ofFields (taggedFields kind fields)

end QueryGateway.Operation
