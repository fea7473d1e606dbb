import QueryGateway.Proofs.Plan.Rows
import QueryGateway.Proofs.Sql.FirstWord
import QueryGateway.Proofs.Sql.Patterns

/-!
With which words the statements of a transaction open. Those that the gateway words itself begin to
write rows; those that the caller wrote open with whatever the screening lets pass.
-/

set_option autoImplicit false
set_option relaxedAutoImplicit false

namespace QueryGateway.Proofs.Plan.Openings

open QueryGateway.Sql
open QueryGateway.Plan
open QueryGateway.Proofs.Plan.Rows
open QueryGateway.Proofs.Sql.FirstWord
open QueryGateway.Proofs.Sql.Patterns (query_ok_iff)

/-- Words of statements that act on the schema and commit what came before them. -/
def schemaWords : List String := ["create", "alter", "drop", "truncate"]

/-- Words of statements that end the transaction in which they stand, or begin another. -/
def concludingWords : List String :=
  ["commit", "rollback", "begin", "start", "rename"] ++ schemaWords

/-- Whether a statement ends the transaction in which it stands. -/
def concludes (s : List Char) : Bool := opensWith concludingWords s

/-- Whether a step is a query of the caller's that ends the transaction. -/
def AsksToConclude (step : TransactionStep) : Prop :=
  ∃ query params allowWrite, operationOf step = .ok (.execute query params allowWrite) ∧
    concludes query.toList = true

/-! ## Single statements -/

def writingWords : List String := ["INSERT", "UPDATE", "DELETE"]

private theorem concludes_writing {word : String} (hword : word ∈ writingWords) (rest : List Char) :
    concludes (word.toList ++ ' ' :: rest) = false := by
  have hplain : ∀ w ∈ writingWords, w.toList.all (fun c => Text.Runs.kindOf c == .word) = true ∧
      w.toList ≠ [] ∧
      concludingWords.any (fun k => w.toList.map Char.toLower == k.toList) = false := by decide
  obtain ⟨hkind, hne, hother⟩ := hplain word hword
  have hword : ∀ c ∈ word.toList, Text.Runs.kindOf c = .word := by simpa using hkind
  rw [concludes, opensWith, firstWord_append hword hne (by decide)]
  exact hother

/-! ## Steps -/

/-- The plan of a step that the gateway words itself has one statement, which writes rows. -/
def Writes (p : Plan) : Prop :=
  ∃ s word rest, p.statements = [s] ∧ word ∈ writingWords ∧ s.chars = word.toList ++ ' ' :: rest

private theorem writes_of_ofStep {op : Operation} {p : Plan} (h : ofSimple op = .ok p)
    (hstep : op.kind.isStep = true) (hop : op.kind ≠ .execute) : Writes p := by
  cases op with
  | create table data =>
    obtain ⟨t, ns, _, _, _, rfl⟩ := ofCreate_ok h
    exact ⟨_, "INSERT", _, rfl, by simp [writingWords], rfl⟩
  | update table data filter =>
    obtain ⟨t, ns, f, _, _, _, _, _, rfl⟩ := ofUpdate_ok h
    exact ⟨_, "UPDATE", _, rfl, by simp [writingWords], rfl⟩
  | delete table filter =>
    obtain ⟨t, f, _, _, _, rfl⟩ := ofDelete_ok h
    exact ⟨_, "DELETE", _, rfl, by simp [writingWords], rfl⟩
  | bulkInsert table records =>
    obtain ⟨t, ns, first, rest, _, _, _, _, _, rfl⟩ := ofBulkInsert_ok h
    exact ⟨_, "INSERT", _, rfl, by simp [writingWords], rfl⟩
  | execute query params allowWrite => exact absurd rfl hop
  | _ => cases hstep

private theorem concludes_ofStep_iff {step : TransactionStep} {p : Plan} (h : ofStep step = .ok p) :
    (∃ s ∈ p.statements, concludes s.chars = true) ↔ AsksToConclude step := by
  obtain ⟨op, hop, hstep, hp⟩ := ofStep_ok h
  by_cases hexecute : op.kind = .execute
  · cases op with
    | execute query params allowWrite =>
      obtain ⟨query', hquery, _, rfl⟩ := ofExecute_ok hp
      obtain ⟨rfl, _⟩ := query_ok_iff.mp hquery
      have hchars : (⟨[.raw query'], params.getD [], "Execute query", [], false⟩ : Statement).chars =
          query'.toList := List.append_nil _
      constructor
      · rintro ⟨s, hs, hc⟩
        rw [List.mem_singleton.mp hs, hchars] at hc
        exact ⟨query', params, allowWrite, hop, hc⟩
      · rintro ⟨query, _, _, hasked, hc⟩
        rw [hop] at hasked
        cases hasked
        exact ⟨_, List.mem_singleton_self _, by rwa [hchars]⟩
    | _ => cases hexecute
  · obtain ⟨s, word, rest, hstatements, hword, hchars⟩ := writes_of_ofStep hp hstep hexecute
    refine iff_of_false ?_ ?_
    · rintro ⟨s', hs', hc⟩
      rw [hstatements] at hs'
      rw [List.mem_singleton.mp hs', hchars, concludes_writing hword] at hc
      cases hc
    · rintro ⟨query, params, allowWrite, hasked, _⟩
      rw [hop] at hasked
      cases hasked
      exact hexecute rfl

theorem concludes_stepwise_iff {number : Nat} {steps : List TransactionStep} {ss : List Statement}
    (h : Stepwise number steps ss) :
    (∃ s ∈ ss, concludes s.chars = true) ↔ ∃ step ∈ steps, AsksToConclude step := by
  induction h with
  | nil number => simp
  | @cons number step steps p rest hstep _ ih =>
    have hhead : (∃ s ∈ p.statements.map (stepStatement number), concludes s.chars = true) ↔
        AsksToConclude step := by
      rw [← concludes_ofStep_iff hstep]
      simp [stepStatement, Statement.chars]
    simp only [List.mem_append, List.mem_cons, or_and_right, exists_or, exists_eq_left]
    rw [hhead, ih]

theorem opensWith_schemaWords {number : Nat} {steps : List TransactionStep} {ss : List Statement}
    (h : Stepwise number steps ss) {step : TransactionStep} (hmem : step ∈ steps) {query : String}
    {params : Option (List Value)} (hop : operationOf step = .ok (.execute query params false)) :
    opensWith schemaWords query.toList = false := by
  obtain ⟨p, _, hstep, _⟩ := h.exists_of_mem hmem
  obtain ⟨op, hop', _, hp⟩ := ofStep_ok hstep
  rw [hop] at hop'
  cases hop'
  obtain ⟨_, hquery, _⟩ := ofExecute_ok hp
  have hscreened : ∀ k ∈ schemaWords, k ∈ Screening.writeWords ∧ k.toList ≠ [] ∧
      k.toList.all (fun c => c.toNat < 128) = true := by decide
  exact opensWith_eq_false hscreened ((query_ok_iff.mp hquery).2.reading rfl)

end QueryGateway.Proofs.Plan.Openings
