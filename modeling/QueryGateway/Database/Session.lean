import QueryGateway.Database.Call
import QueryGateway.Log.Record
import QueryGateway.Telemetry.Span

/-!
Sessions: the course of the gateway's work. A session takes the outcomes of calls from a script,
keeps a journal of the calls, and collects what is logged and what telemetry is told. Work that may
fail runs on top of it.
-/

set_option autoImplicit false
set_option relaxedAutoImplicit false

namespace QueryGateway.Database

open QueryGateway.Telemetry (SpanEvent)

/-- The state of a session. Journal, records and spans have the latest entry first; `opened` counts
the connections that were checked out, and gives the next one its number. -/
structure Session where
  script : Script := Script.empty
  hasPool : Bool := false
  opened : Nat := 0
  journal : List Entry := []
  scope : Log.Scope := Log.Scope.empty
  records : List Log.Record := []
  spans : List SpanEvent := []

abbrev Run := StateM Session

/-- Work within a session that may fail. -/
abbrev Attempt := ExceptT Failure Run

namespace Session

def afterCall (s : Session) (kind : CallKind) (call : Call) : Session :=
  { s with
    script := s.script.rest kind
    journal := ⟨call, (s.script.next kind).succeeded⟩ :: s.journal }

def noting (s : Session) (call : Call) : Session := { s with journal := ⟨call, true⟩ :: s.journal }

/-- The session with another log record, marked with the scope it is in. -/
def logging (s : Session) (r : Log.Record) : Session :=
  { s with records := r.stamp s.scope :: s.records }

end Session

/-- Makes a call and takes its outcome from the script. -/
def call (kind : CallKind) (c : Call) : Attempt Reply := do
  let s ← get
  set (s.afterCall kind c)
  match s.script.next kind with
  | .failed f => throw f
  | .done reply => return reply

/-- Puts something that cannot fail into the journal. -/
def note (c : Call) : Run Unit := modify fun s => s.noting c

def wait (delay : Number.Binary64) : Run Unit := note (.sleep delay)

def log (level : Log.Level) (logger message : String) (fields : Fields) : Run Unit :=
  modify fun s =>
    s.logging { level := level, logger := logger, message := message, fields := fields }

def logFailure (logger message : String) (fields : Fields) (f : Failure) : Run Unit :=
  modify fun s => s.logging
    { level := .error, logger := logger, message := message, fields := fields, failure := some f }

def tell (e : SpanEvent) : Run Unit := modify fun s => { s with spans := e :: s.spans }

def inSpan {α : Type} (span : Telemetry.Span) (work : Attempt α) : Attempt α :=
  span.around (m := Run) tell work

def checkOut : Attempt Nat := do
  let connection := (← get).opened
  let _ ← call .checkOut (.checkOut connection)
  modify fun s => { s with opened := connection + 1 }
  return connection

/-- Releases a connection while some failure is under way, if there is one. A failing release takes
the place of that failure, which becomes the context in which it arose. -/
def release (connection : Nat) (underWay : Option Failure) : Attempt Unit := fun s =>
  match call .release (.release connection) s with
  | (.ok _, s) => (.ok (), s)
  | (.error f, s) => (.error (f.within underWay), s)

def thenReleasing {α : Type} (connection : Nat) (work : Attempt α) : Attempt α := fun s =>
  match work s with
  | (.ok a, s) =>
    match release connection none s with
    | (.ok _, s) => (.ok a, s)
    | (.error f, s) => (.error f, s)
  | (.error f, s) =>
    match release connection (some f) s with
    | (.ok _, s) => (.error f, s)
    | (.error g, s) => (.error g, s)

/-- Does some work in a transaction, which is committed if the work succeeds and rolled back if it
fails. -/
def inTransaction {α : Type} (connection : Nat) (work : Attempt α) : Attempt α := do
  let _ ← call .start (.start connection)
  let result ← ExceptT.lift work.run
  match result with
  | .ok a =>
    let _ ← call .commit (.commit connection)
    return a
  | .error f =>
    note (.rollBack connection)
    throw f

end QueryGateway.Database
