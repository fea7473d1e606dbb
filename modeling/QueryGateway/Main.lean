import QueryGateway.CommandLine
import QueryGateway.Log.Line

/-!
The program at a terminal: a rehearsal of the start, with a database that answers every call as it
should. What would be logged is written to standard error, one line for each record; what would be
served is written to standard output.
-/

set_option autoImplicit false
set_option relaxedAutoImplicit false

namespace QueryGateway.Terminal

open QueryGateway.CommandLine (Ending Served)
open QueryGateway.Database (Run)

/-- What is written about the use of the program. -/
def usage : String :=
  "usage: sqlgate [-h] [-v] [--version] [connection_string] [enabled_tools]"

def variableNames : List String :=
  ["SERVER_NAME", "ENABLED_TOOLS", "LOG_LEVEL", "CONNECTION_STRING"].map ("SQLGATE_" ++ ·) ++
  ["HOST", "PORT", "USER", "PASSWORD", "DATABASE", "DRIVERNAME", "CONNECTION_LIMIT",
   "ACQUIRE_TIMEOUT", "CONNECT_TIMEOUT", "TIMEOUT", "IDLE_TIMEOUT", "MAX_RETRIES",
   "RETRY_DELAY"].map ("SQLGATE_DB_" ++ ·)

def readEnvironment : IO Settings.Environment := do
  let values ← variableNames.mapM fun name => do return (name, ← IO.getEnv name)
  return values.filterMap fun p => p.2.map fun v => (p.1, v)

def serveNobody (_ : Dispatcher) : Run Served := return .finished

def conclude : Ending → IO UInt32
  | .exit code => return UInt32.ofNat code
  | .halt .help => do
    IO.println usage
    return 0
  | .halt .version => do
    IO.println ("sqlgate " ++ Log.Record.version)
    return 0
  | .halt .misuse => do
    IO.eprintln usage
    return 2
  | .settings issues => do
    IO.eprintln (Input.Issue.listText issues)
    return 1
  | .connectionText => do
    IO.eprintln "The connection string cannot be read"
    return 1
  | .failure f => do
    IO.eprintln f.headline
    return 1

/-- Writes a log record, as of a number of seconds after the beginning of 1970. -/
def writeRecord (seconds : Nat) (r : Log.Record) : IO Unit :=
  match Log.Line.ofRecord (.int seconds) [] none r with
  | .ok line => IO.eprintln line
  | .error _ => IO.eprintln r.message

def start (arguments : List String) : IO UInt32 := do
  let environment ← readEnvironment
  let (course, session) :=
    (CommandLine.run {} environment { id := "start" } arguments serveNobody).run {}
  session.records.reverse.forM (writeRecord 0)
  if let some tools := course.tools then
    IO.println (String.intercalate "," (tools.map Tool.name))
  conclude course.ending

end QueryGateway.Terminal

def main (arguments : List String) : IO UInt32 := QueryGateway.Terminal.start arguments
