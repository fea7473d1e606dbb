import QueryGateway.Sql.Column

/-!
Operations: what callers ask for, apart from how it is done. Each kind has a name, which is also the
name of the tool that offers it.
-/

set_option autoImplicit false
set_option relaxedAutoImplicit false

namespace QueryGateway

open QueryGateway.Sql (ColumnSpec NamedColumn)

inductive OperationKind
  | read | create | update | delete | bulkInsert
  | execute | ddl
  | addColumn | dropColumn | modifyColumn | renameColumn | renameTable | addIndex | dropIndex
  | transaction
  | list | utility
  deriving DecidableEq, Repr, Inhabited

namespace OperationKind

def text : OperationKind → String
  | .read => "read"
  | .create => "create"
  | .update => "update"
  | .delete => "delete"
  | .bulkInsert => "bulk_insert"
  | .execute => "execute"
  | .ddl => "ddl"
  | .addColumn => "add_column"
  | .dropColumn => "drop_column"
  | .modifyColumn => "modify_column"
  | .renameColumn => "rename_column"
  | .renameTable => "rename_table"
  | .addIndex => "add_index"
  | .dropIndex => "drop_index"
  | .transaction => "transaction"
  | .list => "list"
  | .utility => "utility"

def all : List OperationKind :=
  [.read, .create, .update, .delete, .bulkInsert, .execute, .ddl, .addColumn, .dropColumn,
   .modifyColumn, .renameColumn, .renameTable, .addIndex, .dropIndex, .transaction, .list, .utility]

def ofText? (s : String) : Option OperationKind := all.find? fun k => k.text == s

def isStep : OperationKind → Bool
  | .create | .update | .delete | .bulkInsert | .execute => true
  | _ => false

end OperationKind

inductive IndexMethod
  | btree | hash | fulltext | spatial
  deriving DecidableEq, Repr

namespace IndexMethod

def text : IndexMethod → String
  | .btree => "BTREE"
  | .hash => "HASH"
  | .fulltext => "FULLTEXT"
  | .spatial => "SPATIAL"

def all : List IndexMethod := [.btree, .hash, .fulltext, .spatial]

def ofText? (s : String) : Option IndexMethod := all.find? fun m => m.text == s

end IndexMethod

inductive UtilityAction
  | ping | version | stats | describeTable
  deriving DecidableEq, Repr

namespace UtilityAction

def text : UtilityAction → String
  | .ping => "ping"
  | .version => "version"
  | .stats => "stats"
  | .describeTable => "describe_table"

def all : List UtilityAction := [.ping, .version, .stats, .describeTable]

def ofText? (s : String) : Option UtilityAction := all.find? fun a => a.text == s

end UtilityAction

inductive Placement
  | first
  | after (column : String)
  deriving DecidableEq, Repr

structure ReadRequest where
  table : String
  columns : Option (List String)
  filter : Option Fields
  ordering : Option String
  limit : Option Int
  offset : Option Int
  deriving Repr

structure IndexRequest where
  table : String
  name : String
  columns : List String
  method : Option IndexMethod
  unique : Bool
  deriving Repr

mutual

inductive Operation
  | read (request : ReadRequest)
  | create (table : String) (data : Fields)
  | update (table : String) (data : Fields) (filter : Option Fields)
  | delete (table : String) (filter : Option Fields)
  | bulkInsert (table : String) (records : List Fields)
  | execute (query : String) (params : Option (List Value)) (allowWrite : Bool)
  | ddl (statement : String)
  | addColumn (table : String) (column : NamedColumn) (position : Option Placement)
  | dropColumn (table column : String)
  | modifyColumn (table column : String) (definition : ColumnSpec)
  | renameColumn (table oldName newName : String) (definition : Option ColumnSpec)
  | renameTable (oldName newName : String)
  | addIndex (request : IndexRequest)
  | dropIndex (table name : String)
  | transaction (steps : List TransactionStep)
  | list (table : Option String)
  | utility (action : UtilityAction) (table : Option String)
  deriving Repr

/-- A step of a transaction: an object that describes an operation, or an operation. -/
inductive TransactionStep
  | described (fields : Fields)
  | given (op : Operation)
  deriving Repr

end

namespace Operation

def kind : Operation → OperationKind
  | .read _ => .read
  | .create _ _ => .create
  | .update _ _ _ => .update
  | .delete _ _ => .delete
  | .bulkInsert _ _ => .bulkInsert
  | .execute _ _ _ => .execute
  | .ddl _ => .ddl
  | .addColumn _ _ _ => .addColumn
  | .dropColumn _ _ => .dropColumn
  | .modifyColumn _ _ _ => .modifyColumn
  | .renameColumn _ _ _ _ => .renameColumn
  | .renameTable _ _ => .renameTable
  | .addIndex _ => .addIndex
  | .dropIndex _ _ => .dropIndex
  | .transaction _ => .transaction
  | .list _ => .list
  | .utility _ _ => .utility

def target : Operation → Option String
  | .read r => some r.table
  | .create t _ | .update t _ _ | .delete t _ | .bulkInsert t _ => some t
  | .addColumn t _ _ | .dropColumn t _ | .modifyColumn t _ _ | .renameColumn t _ _ _ => some t
  | .renameTable t _ => some t
  | .addIndex r => some r.table
  | .dropIndex t _ => some t
  | .list t | .utility _ t => t
  | .execute _ _ _ | .ddl _ | .transaction _ => none

def telemetry (op : Operation) : Fields :=
  ("operation.type", .text op.kind.text) ::
    match op.target with
    | some t => if t.isEmpty then [] else [("operation.table", .text t)]
    | none => []

def definition? : Operation → Option ColumnSpec
  | .addColumn _ c _ => some c.spec
  | .modifyColumn _ _ d => some d
  | .renameColumn _ _ _ d => d
  | _ => none

end Operation

end QueryGateway
