import QueryGateway.Engine.Inspection
import QueryGateway.Number.Numeral
import QueryGateway.Retry

/-!
The pool of connections: testing whether the database can be reached, opening connections ahead of
their use, telling how the pool is occupied, and closing it.
-/

set_option autoImplicit false
set_option relaxedAutoImplicit false

namespace QueryGateway.Engine

open QueryGateway.Database
open QueryGateway.Number

def testAttempts : Nat := 3

/-- The policy of tests, which does not depend on how often plans are attempted. -/
def testPolicy (e : Engine) : RetryPolicy Binary64 := ⟨testAttempts, e.settings.retryDelay⟩

def waitText (delay : Binary64) : String := String.ofList (Shortest.text delay ++ ['s'])

/-- The warning in front of another test, which tells why the last one failed. -/
def testWarning (e : Engine) (request : Request) (attempt : Nat) (delay : Binary64) (f : Failure) :
    Attempt Unit := do
  let message ← orFailure (e.toldMessage f)
  logFor request .warning
    ("Connection test attempt " ++ toString attempt ++ "/" ++ toString testAttempts ++
      " failed, retrying in " ++ waitText delay)
    [("error", .text message)]

/-- How tests are repeated: whatever the failure is, as long as it can be told. -/
def testRetry (e : Engine) (request : Request) : Retry Attempt Failure Binary64 :=
  { policy := e.testPolicy
    times := fun unit n => .ok (unit.times n)
    admits := fun _ => true
    announce := e.testWarning request
    wait := fun delay => ExceptT.lift (wait delay) }

/-- The tests in a row: they fail with the last of them, or with what keeps one from being told. -/
def runTests (e : Engine) (request : Request) : Attempt Unit := do
  let last ← (e.testRetry request).run fun _ => ExceptT.lift (e.withConnection probe).run
  orFailure last

def testConnection (e : Engine) (request : Request) : Attempt Bool := do
  match ← ExceptT.lift (e.runTests request).run with
  | .ok _ => return true
  | .error f => do
    let message ← orFailure (e.toldMessage f)
    logFor request .error "Database connection test failed"
      [("db.url", .text e.settings.maskedUrl), ("error", .text message)]
    return false

/-- How many connections are opened ahead of their use if nothing else is asked for. -/
def usualWarmUp : Int := 5

/-- How many connections to open: no more than the pool may hold. A zero asks for nothing else. -/
def warmUpTarget (e : Engine) (count : Option Int) : Nat :=
  let wanted := match count with
    | none => usualWarmUp
    | some n => if n = 0 then usualWarmUp else n
  (min wanted e.settings.connectionLimit).toNat

/-- Connections held for a while, the latest first, how many of them were checked, and the failure
that broke the work off, if any did. -/
structure Warmed where
  held : List Nat := []
  checked : Nat := 0
  broken : Option Failure := none
  deriving Repr

/-- What is left when opening connections stops early. A warning tells why, and where the failure
cannot be told, that breaks the work off. -/
def stopEarly (e : Engine) (w : Warmed) (f : Failure) : Run Warmed :=
  match e.toldMessage f with
  | .ok message => do
    log .warning poolLogger "Pool warmup stopped early"
      [("warmed", .text (toString w.checked)), ("error", .text message)]
    return w
  | .error g => return { w with broken := some g }

/-- Opens and checks a number of further connections, up to the first failure. -/
def openConnections (e : Engine) : Nat → Warmed → Run Warmed
  | 0, w => pure w
  | remaining + 1, w => do
    match ← e.connect.run with
    | .error f => e.stopEarly w f
    | .ok connection =>
      match ← (probe connection).run with
      | .error f => e.stopEarly { w with held := connection :: w.held } f
      | .ok _ =>
        openConnections e remaining
          { w with held := connection :: w.held, checked := w.checked + 1 }

/-- Releases connections in order, all of them whatever happens, and gives the last failure. -/
def releaseAll (underWay : Option Failure) : List Nat → Run (Option Failure)
  | [] => pure underWay
  | connection :: rest => do
    match ← (release connection underWay).run with
    | .ok _ => releaseAll underWay rest
    | .error f => releaseAll (some f) rest

/-- Opens connections ahead of their use, and gives the number of those that were checked. -/
def warmUp (e : Engine) (count : Option Int) : Attempt Nat := do
  let w ← ExceptT.lift (openConnections e (e.warmUpTarget count) {})
  match ← ExceptT.lift (releaseAll w.broken w.held) with
  | some f => throw f
  | none =>
    log .info poolLogger "Connection pool warmed up" [("warmed", .text (toString w.checked))]
    return w.checked

/-- How the pool is occupied; the pool is made if there is none. -/
def poolStatus (e : Engine) : Attempt Fields := do
  e.ensurePool
  return e.occupancy

def dispose : Run Unit := do
  if (← get).hasPool then
    modify fun s => { s with hasPool := false }
    note .disposePool
    log .info poolLogger "Database pool closed" []

/-- Tests the connection and closes the pool afterwards, whatever the test comes to. -/
def testAndDispose (e : Engine) (request : Request) : Attempt Bool := do
  let reached ← ExceptT.lift (e.testConnection request).run
  dispose
  orFailure reached

end QueryGateway.Engine
