import QueryGateway.Operation
import QueryGateway.Settings.Server
import QueryGateway.Sql.ColumnType
import QueryGateway.Tool.Schema

/-!
The tools there are, and those that are enabled.
-/

set_option autoImplicit false
set_option relaxedAutoImplicit false

/-!
## Tools

The catalog: one tool for every kind of operation, with what callers are told about it.
-/

namespace QueryGateway

open QueryGateway.Tool (Schema)

structure Tool where
  kind : OperationKind
  description : String
  arguments : Schema

namespace Tool

def name (t : Tool) : String := t.kind.text

open Schema (single)

def table : String × Schema := ("table", single .text "Table name")

def conditions : String × Schema :=
  ("where", single .object "Where conditions as key-value pairs")

/-- The argument that holds the values of a row. -/
def rowData : String × Schema := ("data", single .object "Data as column-value pairs")

def columnTypeHelp : String :=
  "Column type, one of " ++ String.intercalate ", " Sql.ColumnType.listedBases ++
    " with optional length"

def columnProperties : List (String × Schema) :=
  [("type", single .text columnTypeHelp),
   ("nullable", single .boolean "Whether the column accepts NULL"),
   ("default", .plain [.text, .number, .boolean, .null] "Default value"),
   ("autoIncrement", single .boolean "Add AUTO_INCREMENT"),
   ("comment", single .text "Column comment")]

def namedColumn : Schema :=
  .object (("name", single .text "Column name") :: columnProperties) ["name", "type"]

def columnSpec : Schema := .object columnProperties ["type"]

def step : Schema :=
  .object
    [("type", .choice ["create", "update", "delete", "bulk_insert", "execute"] ""),
     ("table", single .text ""),
     ("data", .plain [.object, .list] ""),
     ("where", single .object ""),
     ("query", single .text ""),
     ("params", single .list ""),
     ("allowWrite", single .boolean "")]
    ["type"]

def helpOf : OperationKind → String
  | .list => "List tables in the database or columns in a specific table"
  | .read => "Read data from a table with optional filtering and pagination"
  | .create => "Insert data into a table"
  | .update => "Update data in a table"
  | .delete => "Delete data from a table"
  | .bulkInsert => "Insert multiple records into a table with a single statement"
  | .execute => "Execute a custom SQL query (READ-ONLY by default)"
  | .ddl => "Execute DDL (Data Definition Language) statements"
  | .transaction => "Execute multiple operations in a transaction"
  | .utility => "Utility functions for database management"
  | .addColumn => "Add a column to a table"
  | .dropColumn => "Drop a column from a table"
  | .modifyColumn => "Change the definition of an existing column"
  | .renameColumn => "Rename a column, optionally changing its definition"
  | .renameTable => "Rename a table"
  | .addIndex => "Create an index on a table"
  | .dropIndex => "Drop an index from a table"

def schemaOf : OperationKind → Schema
  | .list => .object [("table", single .text "Optional table name to list columns for")] []
  | .read =>
    .object
      [table,
       ("columns", .list (single .text "") 0 "Columns to select (default: all)"),
       conditions,
       ("limit", .integer 1 (some 10000) "Maximum number of rows to return"),
       ("offset", .integer 0 none "Number of rows to skip"),
       ("orderBy", single .text "Order by clause, e.g. 'name DESC, id'")]
      ["table"]
  | .create => .object [table, rowData] ["table", "data"]
  | .update => .object [table, rowData, conditions] ["table", "data", "where"]
  | .delete => .object [table, conditions] ["table", "where"]
  | .bulkInsert =>
    .object
      [table,
       ("data", .list (single .object "") 0
         "Records to insert; all records must have the same columns")]
      ["table", "data"]
  | .execute =>
    .object
      [("query", single .text "SQL query to execute, with ? placeholders"),
       ("params", single .list "Query parameters"),
       ("allowWrite", single .boolean "Allow write operations (default: false)")]
      ["query"]
  | .ddl => .object [("statement", single .text "DDL statement to execute")] ["statement"]
  | .transaction =>
    .object [("operations", .list step 1 "Operations to execute in transaction")] ["operations"]
  | .utility =>
    .object
      [("action", .choice (UtilityAction.all.map UtilityAction.text) "Utility action to perform"),
       ("table", single .text "Table name (required for describe_table)")]
      ["action"]
  | .addColumn =>
    .object
      [table,
       ("column", namedColumn),
       ("position", .object
         [("first", single .boolean "Place the column first"),
          ("after", single .text "Place the column after this column")] [])]
      ["table", "column"]
  | .dropColumn => .object [table, ("column", single .text "Column to drop")] ["table", "column"]
  | .modifyColumn =>
    .object
      [table, ("column", single .text "Column to modify"), ("newDefinition", columnSpec)]
      ["table", "column", "newDefinition"]
  | .renameColumn =>
    .object
      [table, ("oldName", single .text "Current column name"),
       ("newName", single .text "New column name"), ("newDefinition", columnSpec)]
      ["table", "oldName", "newName"]
  | .renameTable =>
    .object
      [("oldName", single .text "Current table name"), ("newName", single .text "New table name")]
      ["oldName", "newName"]
  | .addIndex =>
    .object
      [table,
       ("name", single .text "Index name"),
       ("columns", .list (single .text "") 1 "Indexed columns, in order"),
       ("type", .choice (IndexMethod.all.map IndexMethod.text) "Index type"),
       ("unique", single .boolean "Create a UNIQUE index")]
      ["table", "name", "columns"]
  | .dropIndex => .object [table, ("name", single .text "Index name")] ["table", "name"]

def ofKind (kind : OperationKind) : Tool := ⟨kind, helpOf kind, schemaOf kind⟩

def order : List OperationKind :=
  [.list, .read, .create, .update, .delete, .bulkInsert, .execute, .ddl, .transaction, .utility,
   .addColumn, .dropColumn, .modifyColumn, .renameColumn, .renameTable, .addIndex, .dropIndex]

def catalog : List Tool := order.map ofKind

def ofName? (name : String) : Option Tool := catalog.find? fun t => t.name == name

end Tool

end QueryGateway

/-!
## Selections

Selections of tools. Callers name the tools they want, in any order and with commas in between; what
they get is always in the order of the catalog. One name stands for every tool.
-/

namespace QueryGateway.Tool

open QueryGateway.Settings (ServerSettings)

/-- Which tools are wanted: every one, or those named in some texts. -/
inductive Selection
  | every
  | named (texts : List String)
  deriving DecidableEq, Repr, Inhabited

namespace Selection

def ofText (s : String) : Selection := .named [s]

def everyWord : String := "all"

/-- The names in some texts, without white space around them. -/
def namesIn (texts : List String) : List String :=
  texts.flatMap fun s => (ServerSettings.toolNames s).map String.ofList

def enabled : Selection → List OperationKind
  | .every => order
  | .named texts =>
    let names := namesIn texts
    if names.contains everyWord then order else order.filter fun k => names.contains k.text

/-- A name put among others in order, unless it is there already. -/
def insertName (name : String) : List String → List String
  | [] => [name]
  | other :: rest =>
    if name == other then other :: rest
    else if name < other then name :: other :: rest
    else other :: insertName name rest

def unknown : Selection → List String
  | .every => []
  | .named texts =>
    let names := namesIn texts
    if names.contains everyWord then []
    else (names.filter fun name => (ofName? name).isNone).foldr insertName []

def warning? (s : Selection) : Option String :=
  if s.unknown.isEmpty then none
  else some ("Ignoring unknown tools: " ++ String.intercalate ", " s.unknown)

def logger : String := "sqlgate.api.catalog"

end Selection

end QueryGateway.Tool
