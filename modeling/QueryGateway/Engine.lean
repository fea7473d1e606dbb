import QueryGateway.Database.Call
import QueryGateway.Database.Session
import QueryGateway.Failure.Wording
import QueryGateway.Request
import QueryGateway.Value.Whole

/-!
The engine: settings and a database. A pool of connections is made when the first connection is
needed; whoever takes a connection gives it back on every path.
-/

set_option autoImplicit false
set_option relaxedAutoImplicit false

namespace QueryGateway

open QueryGateway.Database
open QueryGateway.Settings (DatabaseSettings)

structure Engine where
  settings : DatabaseSettings
  server : Server := {}

namespace Engine

def poolLogger : String := "sqlgate.compute.engine"

def logFor (request : Request) (level : Log.Level) (message : String) (fields : Fields) :
    Run Unit :=
  log level (Request.loggerName "engine") message (request.telemetry.update fields)

def platform (e : Engine) : String := if e.settings.isEmbedded then "sqlite" else "mysql"

/-- The limits of time for the driver, which an embedded database does without. -/
def timeouts (s : DatabaseSettings) : Except Failure (Option (Int × Number.Binary64)) :=
  if s.isEmbedded then .ok none
  else (Value.Whole.ofFloat s.connectTimeout).map fun n => some (n, s.statementTimeout)

def orFailure {α : Type} : Except Failure α → Attempt α
  | .ok a => pure a
  | .error f => throw f

def poolOptions (s : DatabaseSettings) : Except Failure PoolOptions := do
  let recycle ← Value.Whole.ofFloat s.idleTimeout
  let limits ← timeouts s
  return ⟨s.connectionLimit, s.acquireTimeout, recycle, limits⟩

def poolFault (s : DatabaseSettings) : Fault :=
  { Fault.ofClass .configuration ("Failed to create database engine for " ++ s.maskedUrl) with
    hint := some "Check the connection string and that the database driver is installed" }

def makePool (e : Engine) : Attempt Unit := do
  let options ← orFailure (poolOptions e.settings)
  let made ← ExceptT.lift (call .createPool (.createPool e.settings.url options)).run
  match made with
  | .error f => throw (Failure.causedBy (poolFault e.settings) f)
  | .ok _ =>
    modify fun s => { s with hasPool := true }
    log .info poolLogger "Created database engine"
      [("db.url", .text e.settings.maskedUrl),
       ("pool.size", .text (toString e.settings.connectionLimit))]

def ensurePool (e : Engine) : Attempt Unit := do
  if (← get).hasPool then return () else e.makePool

def connect (e : Engine) : Attempt Nat := do
  e.ensurePool
  checkOut

def withConnection {α : Type} (e : Engine) (work : Nat → Attempt α) : Attempt α := do
  let connection ← e.connect
  thenReleasing connection (work connection)

def probe (connection : Nat) : Attempt Unit := do
  let _ ← call .execute (.execute connection "SELECT 1" none)

/-- The fault that tells a failure, or what keeps it from being told, which arises while the failure
is being handled. -/
def faultOf (e : Engine) (f : Failure) : Except Failure Fault :=
  (f.toFault (some e.settings)).mapError fun g => g.within (some f)

/-- What becomes of a failure on its way to the caller: the fault that tells it, or what keeps it
from being told. A fault stays as it is. -/
def told (e : Engine) (f : Failure) : Failure :=
  match f.fault? with
  | some _ => f
  | none =>
    match e.faultOf f with
    | .ok g => Failure.causedBy g f
    | .error g => g

def toldMessage (e : Engine) (f : Failure) : Except Failure String :=
  (e.faultOf f).map Fault.message

end Engine

end QueryGateway
