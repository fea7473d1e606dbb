import QueryGateway.Proofs.Plan.Drafting

/-!
Statements are well closed. Whatever names, types, defaults, comments, orderings and numbers an
operation holds, the server reads its statement as one statement, without comments and without text
in double quotes, and reads the names of the operation as names only.
-/

set_option autoImplicit false
set_option relaxedAutoImplicit false

namespace QueryGateway.Proofs.Plan.WellClosed

open QueryGateway.Sql
open QueryGateway.Plan
open QueryGateway.Proofs.Plan.Rows
open QueryGateway.Proofs.Plan.Drafting
open QueryGateway.Proofs.Sql.Fragments

/-- What a statement of an operation is like: well closed with the names of the operation, and the
same apart from them for every operation that differs in nothing else. -/
structure Safe (op : Operation) (s : Statement) : Prop where
  closed : WellClosed s.chars (suppliedNames op)
  apart : ∀ op' p' s', SameButNames op op' → ofOperation op' = .ok p' → p'.statements = [s'] →
    SameBesidesNames s.chars s'.chars

/-- The kinds of operations that have no statement, or statements that callers write. -/
def undrafted : List OperationKind := [.execute, .ddl, .transaction, .list, .utility]

theorem drafts_of_ofSimple {op : Operation} {p : Plan} (h : ofSimple op = .ok p)
    (hkind : op.kind ∉ undrafted) : ∃ s, p.statements = [s] ∧ Drafts op s := by
  cases op with
  | read r => exact drafts_read h
  | create table data => exact drafts_create h
  | update table data filter => exact drafts_update h
  | delete table filter => exact drafts_delete h
  | bulkInsert table records => exact drafts_bulkInsert h
  | addColumn table column position => exact drafts_addColumn h
  | dropColumn table column => exact drafts_dropColumn h
  | modifyColumn table column definition => exact drafts_modifyColumn h
  | renameColumn table old new definition => exact drafts_renameColumn h
  | renameTable old new => exact drafts_renameTable h
  | addIndex r => exact drafts_addIndex h
  | dropIndex table name => exact drafts_dropIndex h
  | execute _ _ _ | ddl _ | transaction _ | list _ | utility _ _ =>
    simp [undrafted, Operation.kind] at hkind

private theorem safe_of_drafts {op : Operation} {p : Plan} {s : Statement} (h : ofSimple op = .ok p)
    (hs : p.statements = [s]) (hdrafts : Drafts op s) : Safe op s := by
  refine ⟨?_, ?_⟩
  · rw [← hdrafts.names]
    exact wellClosed_render hdrafts.legible.orderly
  · intro op' p' s' hop hp' hs'
    have hsimple : ofSimple op' = .ok p' := by cases hop <;> exact hp'
    have hkind : op'.kind ∉ undrafted := by cases hop <;> simp [undrafted, Operation.kind]
    obtain ⟨s'', hs'', hdrafts'⟩ := drafts_of_ofSimple hsimple hkind
    cases hs'.symm.trans hs''
    have hsame := sameOutlines_of_sameButNames hop h hsimple
    exact sameBesidesNames_render hdrafts.legible.orderly hdrafts'.legible.orderly
      (outline_of_sameOutlines hsame hs hs')

private theorem safe_step {step : TransactionStep} {p : Plan} (h : ofStep step = .ok p) :
    ∃ op s, operationOf step = .ok op ∧ p.statements = [s] ∧
      (op.kind ≠ .execute → Safe op s) := by
  obtain ⟨op, hop, hstep, hp⟩ := ofStep_ok h
  have hsafe : (∃ s, p.statements = [s] ∧ Drafts op s) →
      ∃ op s, operationOf step = .ok op ∧ p.statements = [s] ∧
        (op.kind ≠ .execute → Safe op s) := by
    rintro ⟨s, hs, hdrafts⟩
    exact ⟨op, s, hop, hs, fun _ => safe_of_drafts hp hs hdrafts⟩
  cases op with
  | create table data => exact hsafe (drafts_create hp)
  | update table data filter => exact hsafe (drafts_update hp)
  | delete table filter => exact hsafe (drafts_delete hp)
  | bulkInsert table records => exact hsafe (drafts_bulkInsert hp)
  | execute query params allowWrite =>
    obtain ⟨query', _, _, rfl⟩ := ofExecute_ok hp
    exact ⟨_, _, hop, rfl, fun hne => absurd rfl hne⟩
  | _ => cases hstep

private theorem safe_stepwise {number : Nat} {steps : List TransactionStep} {ss : List Statement}
    (h : Stepwise number steps ss) : List.Forall₂ (fun step s => ∃ op,
      operationOf step = .ok op ∧ (op.kind ≠ .execute → Safe op s)) steps ss := by
  induction h with
  | nil => exact .nil
  | cons hstep _ ih =>
    obtain ⟨op, s, hop, hs, hsafe⟩ := safe_step hstep
    rw [hs]
    refine .cons ⟨op, hop, fun hne => ?_⟩ ih
    -- A step is numbered in its description only.
    exact ⟨(hsafe hne).closed, (hsafe hne).apart⟩

/-- An operation whose statement no caller writes has one statement, which is safe; so are the
statements of the steps of a transaction, one for each. -/
theorem statements_safe {op : Operation} {p : Plan} (h : ofOperation op = .ok p) :
    (op.kind ∉ [.execute, .ddl, .transaction, .list, .utility] →
      ∃ s, p.statements = [s] ∧ Safe op s) ∧
    ∀ steps, op = .transaction steps → List.Forall₂ (fun step s => ∃ op,
      operationOf step = .ok op ∧ (op.kind ≠ .execute → Safe op s)) steps p.statements := by
  refine ⟨fun hkind => ?_, ?_⟩
  · have hsimple : ofSimple op = .ok p := by
      cases op <;> first | exact h | simp [Operation.kind] at hkind
    obtain ⟨s, hs, hdrafts⟩ := drafts_of_ofSimple hsimple hkind
    exact ⟨s, hs, safe_of_drafts hsimple hs hdrafts⟩
  · rintro steps rfl
    obtain ⟨ss, hss, rfl⟩ := ofTransaction_ok h
    exact safe_stepwise hss

def hostileColumn : NamedColumn :=
  { name := "c", spec := { type := "enum('a','--')", comment := some "'; DROP TABLE t; -- \\" } }

theorem statements_safe_hostileColumn :
    ∃ p, ofOperation (.addColumn "t" hostileColumn none) = .ok p ∧
      ∃ s, p.statements = [s] ∧ Safe (.addColumn "t" hostileColumn none) s := by
  have h : ofOperation (.addColumn "t" hostileColumn none) = .ok _ := rfl
  exact ⟨_, h, (statements_safe h).1 (by decide)⟩

end QueryGateway.Proofs.Plan.WellClosed
