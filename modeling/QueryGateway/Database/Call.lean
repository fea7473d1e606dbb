import QueryGateway.Failure
import QueryGateway.Number.Binary64
import QueryGateway.Value

/-!
What a database is like to those who ask, and the calls that they make.
-/

set_option autoImplicit false
set_option relaxedAutoImplicit false

/-!
## Servers

The database as the gateway finds it: its dialect, its tables, and how its pool of connections is
occupied.
-/

namespace QueryGateway.Database

structure Column where
  name : String
  type : String
  nullable : Bool := true
  default : Value := .null
  autoIncrement : Bool := false
  deriving Repr

structure Table where
  name : String
  columns : List Column
  primaryKey : List String
  deriving Repr

/-- How a database and its driver want to be talked to. -/
structure Dialect where
  name : String := "mysql"
  parameterStyle : String := "pyformat"
  version : List String := ["8", "0", "36"]
  deriving DecidableEq, Repr

structure Occupancy where
  size : Int
  checkedOut : Int
  checkedIn : Int
  overflow : Int
  deriving DecidableEq, Repr

/-- A database with what can be found out about it without a statement. -/
structure Server where
  dialect : Dialect := {}
  tables : List Table := []
  occupancy : Option Occupancy := none
  deriving Repr

namespace Server

def table? (s : Server) (name : String) : Option Table := s.tables.find? fun t => t.name == name

def hasTable (s : Server) (name : String) : Bool := (s.table? name).isSome

def tableNames (s : Server) : List String := s.tables.map (·.name)

end Server

end QueryGateway.Database

/-!
## Calls

Calls of the database. Nobody foresees their outcomes, so a script gives them, one list for each
kind of call; a call that the script says nothing about succeeds. A journal keeps every call that
was made, with the number of its connection and whether it succeeded.
-/

namespace QueryGateway.Database

/-- What a statement that ran gave: rows, or a number of rows and a new number for one. -/
structure Reply where
  rows : Option (List Fields) := none
  rowCount : Option Int := none
  insertId : Value := .null
  single : Option (List Value) := none
  scalar : Option Value := none
  deriving Repr

def Reply.plain : Reply := { rowCount := some 0 }

inductive CallKind
  | createPool | checkOut | start | execute | commit | release
  deriving DecidableEq, Repr

inductive Outcome
  | failed (f : Failure)
  | done (reply : Reply)
  deriving Repr

def Outcome.succeeded : Outcome → Bool
  | .failed _ => false
  | .done _ => true

abbrev Script := CallKind → List Outcome

namespace Script

def empty : Script := fun _ => []

def next (s : Script) (k : CallKind) : Outcome := (s k).headD (.done .plain)

def rest (s : Script) (k : CallKind) : Script := fun j => if j = k then (s j).tail else s j

end Script

structure PoolOptions where
  size : Int
  acquireTimeout : Number.Binary64
  recycle : Int
  timeouts : Option (Int × Number.Binary64)
  deriving DecidableEq, Repr

inductive Call
  | createPool (url : String) (options : PoolOptions)
  | checkOut (connection : Nat)
  | start (connection : Nat)
  | rollBack (connection : Nat)
  | execute (connection : Nat) (sql : String) (params : Option (List Value))
  | commit (connection : Nat)
  | release (connection : Nat)
  | sleep (delay : Number.Binary64)
  | disposePool
  deriving Repr

structure Entry where
  call : Call
  succeeded : Bool := true
  deriving Repr

end QueryGateway.Database
