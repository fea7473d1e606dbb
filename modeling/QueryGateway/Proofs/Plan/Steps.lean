import QueryGateway.Proofs.Entries
import QueryGateway.Proofs.Operation.Refusals
import QueryGateway.Proofs.Plan.Rows

/-!
Transactions step by step. What a step comes to by itself, a statement or a failure, decides what it
comes to in a transaction: the statement is described with the number of the step, and the first
failure is told with it.
-/

set_option autoImplicit false
set_option relaxedAutoImplicit false

namespace QueryGateway.Proofs.Plan.Steps

open QueryGateway.Plan
open QueryGateway.Proofs.Entries (get?_put get?_put_of_ne)
open QueryGateway.Proofs.Failure.Texts (invalid_of_short)
open QueryGateway.Proofs.Operation.Refusals
open QueryGateway.Proofs.Plan.Rows

/-! ## Steps by themselves -/

def stepKinds : List OperationKind := [.create, .update, .delete, .bulkInsert, .execute]

private theorem isStep_iff {kind : OperationKind} : kind.isStep = true ↔ kind ∈ stepKinds := by
  cases kind <;> decide

def refusal : OperationKind → Fault
  | .transaction => Fault.invalid "Nested transactions are not supported" "type"
  | kind =>
    Fault.invalid ("Unsupported operation type in transaction: " ++ kind.text) "type"
      (some kind.text) .validation
      (some "Transactions accept create, update, delete, bulk_insert and execute steps")

/-- What a step comes to by itself. Its object describes no operation, its operation is of a kind
that steps do not have or does not compile, or it compiles to one statement. -/
inductive Alone : TransactionStep → Except Failure Statement → Prop
  | unread {step : TransactionStep} {f : Failure} : operationOf step = .error f →
      Alone step (.error f)
  | unsuited {step : TransactionStep} {op : Operation} : operationOf step = .ok op →
      op.kind ∉ stepKinds → Alone step (.error (.ofFault (refusal op.kind)))
  | uncompiled {step : TransactionStep} {op : Operation} {f : Failure} :
      operationOf step = .ok op → op.kind ∈ stepKinds → Plan.ofOperation op = .error f →
      Alone step (.error f)
  | compiled {step : TransactionStep} {op : Operation} {p : Plan} {s : Statement} :
      operationOf step = .ok op → op.kind ∈ stepKinds → Plan.ofOperation op = .ok p →
      p.statements = [s] → Alone step (.ok s)

private theorem ofOperation_of_isStep {op : Operation} (h : op.kind.isStep = true) :
    ofOperation op = ofSimple op := by
  cases op with
  | transaction steps => cases h
  | _ => rfl

private theorem ofSuited_of_isStep {op : Operation} (h : op.kind.isStep = true) :
    ofSuited op = ofOperation op := by
  rw [ofOperation_of_isStep h]
  cases op with
  | create | update | delete | bulkInsert | execute => rfl
  | _ => cases h

private theorem short_text (kind : OperationKind) :
    kind.text.toList.length ≤ Fault.shownLength := by
  cases kind <;> decide

private theorem ofSuited_of_not_isStep {op : Operation} (h : op.kind.isStep = false) :
    ofSuited op = .error (.ofFault (refusal op.kind)) := by
  unfold ofSuited
  split
  · rename_i hkind
    rw [hkind]
    rfl
  · rename_i hkind
    rw [h, invalid_of_short _ _ _ _ (short_text op.kind), refusal.eq_2 _ hkind]
    rfl

private theorem exists_statement {op : Operation} {p : Plan} (hstep : op.kind.isStep = true)
    (h : ofOperation op = .ok p) : ∃ s, p.statements = [s] := by
  rw [ofOperation_of_isStep hstep] at h
  cases op with
  | create table data =>
    obtain ⟨t, ns, _, _, _, rfl⟩ := ofCreate_ok h
    exact ⟨_, rfl⟩
  | update table data filter =>
    obtain ⟨t, ns, f, _, _, _, _, _, rfl⟩ := ofUpdate_ok h
    exact ⟨_, rfl⟩
  | delete table filter =>
    obtain ⟨t, f, _, _, _, rfl⟩ := ofDelete_ok h
    exact ⟨_, rfl⟩
  | bulkInsert table records =>
    obtain ⟨t, ns, first, rest, _, _, _, _, _, rfl⟩ := ofBulkInsert_ok h
    exact ⟨_, rfl⟩
  | execute query params allowWrite =>
    obtain ⟨query', _, _, rfl⟩ := ofExecute_ok h
    exact ⟨_, rfl⟩
  | _ => cases hstep

private theorem exists_alone (step : TransactionStep) : ∃ r, Alone step r := by
  cases hop : operationOf step with
  | error f => exact ⟨_, .unread hop⟩
  | ok op =>
    by_cases hstep : op.kind ∈ stepKinds
    · cases hp : Plan.ofOperation op with
      | error f => exact ⟨_, .uncompiled hop hstep hp⟩
      | ok p =>
        obtain ⟨s, hs⟩ := exists_statement (isStep_iff.mpr hstep) hp
        exact ⟨_, .compiled hop hstep hp hs⟩
    · exact ⟨_, .unsuited hop hstep⟩

private theorem ofStep_of_operation {step : TransactionStep} {op : Operation}
    (h : operationOf step = .ok op) :
    ofStep step = ofSuited op := by
  rw [ofStep, h]
  rfl

private theorem ofStep_of_statement {step : TransactionStep} {s : Statement}
    (h : Alone step (.ok s)) :
    ∃ p, ofStep step = .ok p ∧ p.statements = [s] := by
  cases h with
  | compiled hop hstep hp hs =>
    refine ⟨_, ?_, hs⟩
    rw [ofStep_of_operation hop, ofSuited_of_isStep (isStep_iff.mpr hstep), hp]

private theorem ofStep_of_failure {step : TransactionStep} {f : Failure}
    (h : Alone step (.error f)) :
    ofStep step = .error f := by
  cases h with
  | unread hop =>
    rw [ofStep, hop]
    rfl
  | unsuited hop hstep =>
    have hkind : _ = false := Bool.not_eq_true _ ▸ mt isStep_iff.mp hstep
    rw [ofStep_of_operation hop, ofSuited_of_not_isStep hkind]
  | uncompiled hop hstep hp =>
    rw [ofStep_of_operation hop, ofSuited_of_isStep (isStep_iff.mpr hstep), hp]

/-! ## Steps in turn -/

/-- Steps that all compile by themselves, each to its statement. -/
abbrev AllAlone (steps : List TransactionStep) (ss : List Statement) : Prop :=
  List.Forall₂ (fun step s => Alone step (.ok s)) steps ss

/-- Steps of which one fails by itself, and no earlier one does. -/
structure FirstFailing (steps : List TransactionStep) (place : Nat) (f : Failure) : Prop where
  earlier : ∀ i < place, ∃ step s, steps[i]? = some step ∧ Alone step (.ok s)
  here : ∃ step, steps[place]? = some step ∧ Alone step (.error f)

theorem FirstFailing.later {step : TransactionStep} {steps : List TransactionStep} {place : Nat}
    {f : Failure} {s : Statement} (hstep : Alone step (.ok s)) (h : FirstFailing steps place f) :
    FirstFailing (step :: steps) (place + 1) f where
  earlier := by
    intro i hi
    cases i with
    | zero => exact ⟨step, s, rfl, hstep⟩
    | succ i => exact h.earlier i (Nat.lt_of_succ_lt_succ hi)
  here := h.here

theorem allAlone_or_firstFailing (steps : List TransactionStep) :
    (∃ ss, AllAlone steps ss) ∨ ∃ place f, FirstFailing steps place f := by
  induction steps with
  | nil => exact .inl ⟨[], .nil⟩
  | cons step steps ih =>
    obtain ⟨r, hr⟩ := exists_alone step
    cases r with
    | error f => exact .inr ⟨0, f, nofun, step, rfl, hr⟩
    | ok s =>
      rcases ih with ⟨ss, hss⟩ | ⟨place, f, hfailing⟩
      · exact .inl ⟨s :: ss, .cons hr hss⟩
      · exact .inr ⟨place + 1, f, hfailing.later hr⟩

def numbered : Nat → List Statement → List Statement
  | _, [] => []
  | number, s :: ss => stepStatement number s :: numbered (number + 1) ss

private theorem getElem?_numbered (number : Nat) (ss : List Statement) (i : Nat) :
    (numbered number ss)[i]? = ss[i]?.map (stepStatement (number + i)) := by
  induction ss generalizing number i with
  | nil => rfl
  | cons s ss ih =>
    cases i with
    | zero => rfl
    | succ i =>
      have hnumber : number + 1 + i = number + (i + 1) := by omega
      have hrest := ih (number + 1) i
      rw [hnumber] at hrest
      simpa [numbered] using hrest

private theorem ofSteps_of_allAlone {steps : List TransactionStep} {ss : List Statement}
    (h : AllAlone steps ss)
    (number : Nat) : ofSteps number steps = .ok (numbered number ss) := by
  induction h generalizing number with
  | nil => rfl
  | cons hstep _ ih =>
    obtain ⟨p, hp, hs⟩ := ofStep_of_statement hstep
    rw [ofSteps, hp]
    simp only [hs, ih (number + 1)]
    rfl

private theorem ofSteps_of_firstFailing {steps : List TransactionStep} {place : Nat} {f : Failure}
    (h : FirstFailing steps place f) (number : Nat) :
    ofSteps number steps = .error (stepFailure (number + place) f) := by
  induction steps generalizing place number with
  | nil =>
    obtain ⟨step, hnone, _⟩ := h.here
    cases hnone
  | cons step steps ih =>
    cases place with
    | zero =>
      obtain ⟨failing, hfirst, hfailing⟩ := h.here
      cases hfirst
      rw [ofSteps, ofStep_of_failure hfailing]
      rfl
    | succ place =>
      obtain ⟨first, s, hfirst, hs⟩ := h.earlier 0 (Nat.succ_pos place)
      cases hfirst
      obtain ⟨p, hp, _⟩ := ofStep_of_statement hs
      have hlater : FirstFailing steps place f :=
        ⟨fun i hi => h.earlier (i + 1) (Nat.succ_lt_succ hi), h.here⟩
      have hnumber : number + 1 + place = number + (place + 1) := by omega
      rw [ofSteps, hp]
      simp only [ih hlater (number + 1), hnumber]
      rfl

/-! ## Transactions -/

/-- A statement that differs from another in nothing but the number in its description. -/
structure Numbers (number : Nat) (alone s : Statement) : Prop where
  sql : s.sql = alone.sql
  params : s.params = alone.params
  prechecks : s.prechecks = alone.prechecks
  returnsRows : s.returnsRows = alone.returnsRows
  description : s.description = "Step " ++ toString number ++ ": " ++ alone.description

/-- A fault that differs from another in nothing but the number in its message and its details. -/
structure Retells (number : Nat) (alone f : Fault) : Prop where
  category : f.category = alone.category
  code : f.code = alone.code
  hint : f.hint = alone.hint
  message : f.message = "Transaction step " ++ toString number ++ ": " ++ alone.message
  step : f.details.get? "step" = some (.int number)
  details : ∀ key, key ≠ "step" → f.details.get? key = alone.details.get? key

private theorem numbers_stepStatement (number : Nat) (s : Statement) :
    Numbers number s (stepStatement number s) :=
  ⟨rfl, rfl, rfl, rfl, rfl⟩

theorem retells_stepFault (number : Nat) (f : Fault) : Retells number f (stepFault number f) where
  category := rfl
  code := rfl
  hint := rfl
  message := rfl
  step := get?_put _ _ _
  details := fun _ hkey => get?_put_of_ne _ _ hkey

/-- A plan that carries out the statements of steps in one transaction. -/
structure Lifted (steps : List TransactionStep) (ss : List Statement) (plan : Plan) : Prop where
  kind : plan.kind = .transaction
  inquiry : plan.inquiry = none
  transactional : plan.transactional = true
  length : plan.statements.length = steps.length
  statements : ∀ i alone, ss[i]? = some alone →
    ∃ s, plan.statements[i]? = some s ∧ Numbers (i + 1) alone s

private theorem length_numbered (number : Nat) (ss : List Statement) :
    (numbered number ss).length = ss.length := by
  induction ss generalizing number with
  | nil => rfl
  | cons s ss ih => rw [numbered, List.length_cons, List.length_cons, ih]

theorem lifted_of_allAlone {steps : List TransactionStep} (hne : steps ≠ []) {ss : List Statement}
    (h : AllAlone steps ss) : ∃ plan, ofTransaction steps = .ok plan ∧ Lifted steps ss plan := by
  refine ⟨{ kind := .transaction, statements := numbered 1 ss, transactional := true }, ?_, ?_⟩
  · rw [ofTransaction, if_neg (by simpa using hne), ofSteps_of_allAlone h]
    rfl
  · refine ⟨rfl, rfl, rfl, (length_numbered 1 ss).trans h.length_eq.symm, ?_⟩
    intro i alone halone
    refine ⟨stepStatement (i + 1) alone, ?_, numbers_stepStatement _ _⟩
    rw [getElem?_numbered, halone, Nat.add_comm]
    rfl

theorem ofTransaction_of_firstFailing {steps : List TransactionStep} {place : Nat} {f : Failure}
    (h : FirstFailing steps place f) :
    ofTransaction steps = .error (stepFailure (place + 1) f) := by
  have hne : steps ≠ [] := by
    rintro rfl
    obtain ⟨step, hnone, _⟩ := h.here
    cases hnone
  rw [ofTransaction, if_neg (by simpa using hne), ofSteps_of_firstFailing h, Nat.add_comm]
  rfl

/-- A step that is an operation, or an object with a type tag that can be written. -/
inductive Tagged : TransactionStep → Prop
  | described {fields : Fields} : (tagOf fields).isWritable = true → Tagged (.described fields)
  | given (op : Operation) : Tagged (.given op)

private theorem not_tagged_iff {step : TransactionStep} : ¬Tagged step ↔
    ∃ fields, step = .described fields ∧ (tagOf fields).isWritable = false := by
  constructor
  · intro h
    cases step with
    | described fields => exact ⟨fields, rfl, Bool.not_eq_true _ ▸ mt Tagged.described h⟩
    | given op => exact absurd (.given op) h
  · rintro ⟨fields, rfl, hwritable⟩ (hwritable' | _)
    rw [hwritable] at hwritable'
    cases hwritable'

theorem fault_of_tagged {step : TransactionStep} {f : Failure} (htag : Tagged step)
    (h : Alone step (.error f)) : ∃ g, f = .ofFault g := by
  cases h with
  | unread hop =>
    cases htag with
    | described hwritable => exact refuses_ofFields hwritable f hop
    | given op => cases hop
  | unsuited hop hkind => exact ⟨_, rfl⟩
  | uncompiled hop hkind hp =>
    have hstep := isStep_iff.mpr hkind
    exact refuses_ofSimple hstep f ((ofOperation_of_isStep hstep).symm.trans hp)

theorem alone_of_not_tagged {step : TransactionStep} {r : Except Failure Statement}
    (htag : ¬Tagged step) (h : Alone step r) : r = .error .unwritable := by
  obtain ⟨fields, rfl, hwritable⟩ := not_tagged_iff.mp htag
  have hread := ofFields_of_not_writable hwritable
  cases h with
  | unread hop =>
    rw [operationOf, hread] at hop
    cases hop
    rfl
  | unsuited hop _ | uncompiled hop _ _ | compiled hop _ _ _ =>
    rw [operationOf, hread] at hop
    cases hop

end QueryGateway.Proofs.Plan.Steps
