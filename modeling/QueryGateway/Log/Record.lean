import QueryGateway.Failure
import QueryGateway.Text.LetterCase

/-!
Log records, and the loggers that they go through.
-/

set_option autoImplicit false
set_option relaxedAutoImplicit false

/-!
## Records

Log records, and the scope that marks every record of a tool call. A record keeps its fields in
order; a request number that a record brings along wins over that of the scope.
-/

namespace QueryGateway.Log

structure Level where
  number : Int
  deriving DecidableEq, Repr, Inhabited

namespace Level

def debug : Level := ⟨10⟩

def info : Level := ⟨20⟩

/-- Something that went wrong without doing harm. -/
def warning : Level := ⟨30⟩

def error : Level := ⟨40⟩

def named : List (Int × String) :=
  [(0, "NOTSET"), (10, "DEBUG"), (20, "INFO"), (30, "WARNING"), (40, "ERROR"), (50, "CRITICAL")]

def name (l : Level) : String :=
  match named.find? fun p => p.1 == l.number with
  | some p => p.2
  | none => "Level " ++ toString l.number

end Level

/-- The tool call that records belong to, as far as it is known. -/
structure Scope where
  requestId : Option String := none
  toolName : Option String := none
  deriving DecidableEq, Repr, Inhabited

namespace Scope

def empty : Scope := {}

/-- The scope with what is known about a call put in place of what was known before. -/
def bind (s : Scope) (requestId toolName : Option String) : Scope :=
  ⟨requestId.orElse fun _ => s.requestId, toolName.orElse fun _ => s.toolName⟩

end Scope

structure Record where
  level : Level
  logger : String
  message : String
  fields : Fields := []
  failure : Option Failure := none
  deriving Repr, Inhabited

namespace Record

def service : String := "sqlgate"

def version : String := "0.1.0"

def ownRequest? (r : Record) : Option Value :=
  match r.fields.get? "request_id" with
  | some .null => none
  | other => other

/-- The fields of a record marked with a scope and the name and version of the service. -/
def stampedFields (s : Scope) (r : Record) : Fields :=
  let request := r.ownRequest?.getD (.ofText? s.requestId)
  (((r.fields.put "request_id" request).put "tool_name" (.ofText? s.toolName)).put "service"
    (.text service)).put "service_version" (.text version)

def stamp (s : Scope) (r : Record) : Record := { r with fields := stampedFields s r }

end Record

end QueryGateway.Log

/-!
## Loggers

How much each logger writes. Everything is written to one place at the level that was asked for;
libraries that tell much are held back unless everything is wanted.
-/

namespace QueryGateway.Log

structure Setup where
  general : Level
  libraries : Level
  deriving DecidableEq, Repr

namespace Setup

/-- The loggers of libraries that are held back. -/
def quiet : List String := ["sqlalchemy.engine", "sqlalchemy.pool", "mcp"]

def levels : List (String × Level) :=
  [("CRITICAL", ⟨50⟩), ("FATAL", ⟨50⟩), ("ERROR", .error), ("WARN", .warning),
   ("WARNING", .warning), ("INFO", .info), ("DEBUG", .debug), ("NOTSET", ⟨0⟩)]

def level? (name : String) : Option Level :=
  let capitals := String.ofList (Text.LetterCase.upper name.toList)
  (levels.find? fun p => p.1 == capitals).map (·.2)

def ofName? (name : String) : Option Setup :=
  (level? name).map fun l => ⟨l, if l = .debug then .debug else .warning⟩

end Setup

end QueryGateway.Log
