import QueryGateway.Proofs.Engine.Findings
import QueryGateway.Proofs.Entries
import QueryGateway.Tool.Dispatcher

/-!
Envelopes are of two kinds, and no envelope is of both: one says that it is a success, the other
that it is an error, of which type and code and with which message.
-/

set_option autoImplicit false
set_option relaxedAutoImplicit false

namespace QueryGateway.Proofs.Tool.Envelopes

open QueryGateway.Engine (Result)
open QueryGateway.Proofs.Engine.Findings (Unmarked)
open QueryGateway.Proofs.Entries
open QueryGateway.Tool

/-- An envelope that says that it is a success, and nothing of an error. -/
structure Succeeds (envelope : Fields) : Prop where
  success : envelope.get? "success" = some (.bool true)
  noError : envelope.has "error" = false

/-- An envelope that tells an error with its type, code and message, and nothing of a success. -/
structure Fails (envelope : Fields) : Prop where
  error : envelope.get? "error" = some (.bool true)
  type : ∃ category : FaultClass, envelope.get? "type" = some (.text category.name)
  code : ∃ code : Code, envelope.get? "code" = some (.text code.text)
  message : ∃ message : String, envelope.get? "message" = some (.text message)
  noSuccess : envelope.has "success" = false

theorem fails_envelope (f : Fault) : Fails f.envelope := by
  refine ⟨rfl, ⟨_, rfl⟩, ⟨_, rfl⟩, ⟨_, rfl⟩, ?_⟩
  unfold Fault.envelope
  cases f.hint with
  | none => rfl
  | some h =>
    simp only
    split <;> rfl

def ofFailure (f : Failure) : Fields :=
  match f.fault? with
  | some g => g.envelope
  | none => Dispatcher.unexpected.envelope

theorem fails_ofFailure (f : Failure) : Fails (ofFailure f) := by
  unfold ofFailure
  split <;> exact fails_envelope _

private theorem noError_utility {now : String} {action : UtilityAction} {table : Option String}
    {r : Result}
    (h : Unmarked r.info) : Fields.has (Envelope.utility now action table r) "error" = false := by
  cases action with
  | ping | describeTable => rfl
  | version | stats => exact h.error

private theorem noError_body {now : String} {op : Operation} {r : Result}
    (h : ∀ action table, op = .utility action table → Unmarked r.info) :
    Fields.has (Envelope.body now op r) "error" = false := by
  cases op with
  | list table =>
    cases table with
    | none => rfl
    | some table =>
      simp only [Envelope.body]
      split <;> rfl
  | execute query params allowWrite =>
    simp only [Envelope.body]
    split <;> rfl
  | utility action table => exact noError_utility (h action table rfl)
  | _ => rfl

theorem succeeds_ofResult {now : String} {op : Operation} {r : Result}
    (h : ∀ action table, op = .utility action table → Unmarked r.info) :
    Succeeds (Envelope.ofResult now op r) where
  success := rfl
  noError := by
    have hbody : Fields.has (Envelope.body now op r) "error" = false := noError_body h
    rw [Envelope.ofResult, has_portableEntries, has_cons, hbody]
    rfl

end QueryGateway.Proofs.Tool.Envelopes
