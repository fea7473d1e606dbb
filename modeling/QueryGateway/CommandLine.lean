import QueryGateway.CommandLine.Arguments
import QueryGateway.Tool.Dispatcher

/-!
The program: it reads the command line and the settings, tests the database, and serves tools until
its caller leaves. However that goes once there is an engine, the pool of connections is closed.
-/

set_option autoImplicit false
set_option relaxedAutoImplicit false

namespace QueryGateway.CommandLine

open QueryGateway.Database
open QueryGateway.Settings (DatabaseSettings Environment ServerSettings)

inductive Served
  | finished
  | interrupted
  | failed (f : Failure)
  deriving Repr

/-- Why a stage of the program does not come to its end: its caller breaks it off, or it fails. -/
inductive Break
  | interruption
  | failure (f : Failure)
  deriving Repr

abbrev Stage := ExceptT Break Run

def Served.outcome : Served → Except Break Unit
  | .finished => .ok ()
  | .interrupted => .error .interruption
  | .failed f => .error (.failure f)

/-- The stages that the program goes through with an engine: it tests whether the database can be
reached, opens connections ahead of their use, and serves tools. -/
structure Stages where
  test : Stage Bool
  warmUp : Stage Nat
  serve : Dispatcher → Stage Unit

def Stages.ofEngine (e : Engine) (request : Request) (serve : Dispatcher → Run Served) :
    Stages where
  test := (e.testConnection request).adapt .failure
  warmUp := (e.warmUp none).adapt .failure
  serve := fun d => ExceptT.mk (Served.outcome <$> serve d)

/-- How the program ended: with an exit code, or with something that it does not handle. -/
inductive Ending
  | exit (code : Nat)
  | halt (h : Halt)
  | settings (issues : List Input.Issue)
  | connectionText
  | failure (f : Failure)

/-- What the program did: the log level that it set up, the tools that it served, and how it
ended. -/
structure Course where
  level : Option String := none
  tools : Option (List Tool) := none
  serverName : String := ""
  ending : Ending

def logger : String := "sqlgate.cli"

/-- Writes a log record of the program. -/
def report (level : Log.Level) (message : String) (fields : Fields := []) : Run Unit :=
  log level logger message fields

/-- Reports why the server cannot be started. -/
def reportRefusal (reason : String) : Run Unit :=
  report .error ("Failed to start server: " ++ reason)

def endingOf : Break → Run Ending
  | .interruption => do
    report .info "Interrupted, shutting down"
    return .exit 0
  | .failure f =>
    match f.fault? with
    | some g => do
      reportRefusal g.message
      return .exit 1
    | none => return .failure f

/-- Makes everything ready for serving, unless the database cannot be reached. -/
def makeReady (e : Engine) (tools : String) (stages : Stages) : Stage (Option Dispatcher) := do
  if ← stages.test then
    let _ ← stages.warmUp
    let d ← Dispatcher.ofSelection e (Tool.Selection.ofText tools)
    return some d
  else
    return none

def endingOfServing : Except Break Unit → Run Ending
  | .ok _ => return .exit 0
  | .error b => endingOf b

/-- Serves the selected tools, and tells which they were and how the program ends. -/
def serveTools (e : Engine) (tools : String) (stages : Stages) :
    Run (Option (List Tool) × Ending) := do
  match ← (makeReady e tools stages).run with
  | .error b => return (none, ← endingOf b)
  | .ok none =>
    reportRefusal "database connection test failed"
    return (none, .exit 1)
  | .ok (some d) => return (some d.tools, ← endingOfServing (← (stages.serve d).run))

def thenDisposing {α : Type} (work : Run α) : Run α := do
  let a ← work
  Engine.dispose
  report .info "Server shut down"
  return a

/-- The text that is meant: the one given, or else, also if that is empty, another. -/
def givenOr (given other : Option String) : Option String :=
  match given with
  | some s => if s.isEmpty then other else some s
  | none => other

/-- The connection string of the command line or the settings, unless it is empty. -/
def connectionText (a : Arguments) (s : ServerSettings) : Option String :=
  (givenOr a.connection s.connectionString).filter fun text => !text.isEmpty

def toolsText (a : Arguments) (s : ServerSettings) : String :=
  (givenOr a.tools none).getD s.enabledTools

def announce (masked tools : String) : Run Unit := do
  report .info "Starting sqlgate MCP server" [("version", .text Log.Record.version)]
  report .info ("Connection: " ++ masked)
  report .info ("Enabled tools: " ++ tools)

def start (server : Server) (environment : Environment) (connection tools : String)
    (stages : Engine → Stages) : Run (Option (List Tool) × Ending) := do
  match Settings.Url.maskText? connection.toList with
  | none =>
    report .info "Starting sqlgate MCP server" [("version", .text Log.Record.version)]
    return (none, .connectionText)
  | some masked =>
    announce (String.ofList masked) tools
    match DatabaseSettings.ofConnectionString connection [] environment with
    | .error f =>
      reportRefusal f.message
      return (none, .exit 1)
    | .ok (.bad issues) => return (none, .settings issues)
    | .ok (.good settings) =>
      let e : Engine := { settings := settings, server := server }
      thenDisposing (serveTools e tools (stages e))

def levelOf (a : Arguments) (s : ServerSettings) : String :=
  if a.verbose then Log.Level.debug.name else s.logLevel

def carryOut (server : Server) (environment : Environment) (a : Arguments) (s : ServerSettings)
    (stages : Engine → Stages) : Run Course := do
  match connectionText a s with
  | none =>
    report .error "No connection string given and SQLGATE_CONNECTION_STRING is not set"
    return { level := some (levelOf a s), ending := .exit 2 }
  | some connection =>
    let (tools, ending) ← start server environment connection (toolsText a s) stages
    return {
      level := some (levelOf a s), tools := tools, serverName := s.serverName, ending := ending }

/-- Carries out a command line, given the stages that an engine goes through. -/
def runThrough (server : Server) (environment : Environment) (line : List String)
    (stages : Engine → Stages) : Run Course :=
  match Arguments.ofLine line with
  | .error h => return { ending := .halt h }
  | .ok a =>
    match ServerSettings.ofValues [] environment with
    | .bad issues => return { ending := .settings issues }
    | .good s => carryOut server environment a s stages

def run (server : Server) (environment : Environment) (request : Request) (line : List String)
    (serve : Dispatcher → Run Served) : Run Course :=
  runThrough server environment line fun e => Stages.ofEngine e request serve

end QueryGateway.CommandLine
