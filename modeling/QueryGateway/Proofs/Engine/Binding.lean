import QueryGateway.Proofs.Engine.Courses
import QueryGateway.Proofs.Plan.WellClosed
import QueryGateway.Proofs.Sql.Directives

/-!
Values and markers. The text of a statement has a mark for each parameter of the statement, so
whatever the driver's way to write markers, it is handed as many values as it reads markers.
-/

set_option autoImplicit false
set_option relaxedAutoImplicit false

namespace QueryGateway.Proofs.Engine.Binding

open QueryGateway.Database
open QueryGateway.Engine
open QueryGateway.Plan
open QueryGateway.Sql
open QueryGateway.Proofs.Database.Events
open QueryGateway.Proofs.Engine.Conditions (AllMet)
open QueryGateway.Proofs.Engine.Courses
open QueryGateway.Proofs.Plan.Drafting
open QueryGateway.Proofs.Plan.Rows
open QueryGateway.Proofs.Plan.WellClosed
open QueryGateway.Proofs.Sql.Directives
open QueryGateway.Proofs.Sql.Lexemes

/-! ## Plans -/

def Matched (s : Statement) : Prop := Placeholder.count s.chars = .ok s.params.length

private theorem matched_of_drafts {op : Operation} {s : Statement} (h : Drafts op s) :
    Matched s := by
  have hlexed := h.legible.lexed [] rfl
  rw [h.matched] at hlexed
  exact count_of_lexed hlexed h.begins

private theorem matched_of_ofSimple {op : Operation} {p : Plan} (hop : op.kind ≠ .ddl)
    (h : ofSimple op = .ok p) : ∀ s ∈ p.statements, Matched s := by
  -- The marks of a query that is passed on are counted when it is planned; all other statements
  -- are put together with their marks.
  have hdrafted : op.kind ∉ undrafted → ∀ s ∈ p.statements, Matched s := by
    intro hkind
    obtain ⟨s, hs, hdrafts⟩ := drafts_of_ofSimple h hkind
    rw [hs]
    exact List.forall_mem_singleton.mpr (matched_of_drafts hdrafts)
  cases op with
  | execute query params allowWrite =>
    obtain ⟨query', _, hcount, rfl⟩ := ofExecute_ok h
    refine List.forall_mem_singleton.mpr ?_
    have hchars : Fragment.render [.raw query'] = query'.toList := List.append_nil _
    rw [Matched, Statement.chars, hchars, hcount]
  | ddl statement => exact absurd rfl hop
  | transaction steps => cases h
  | list table =>
    rw [ofList_ok h]
    nofun
  | utility action table =>
    rw [ofUtility_ok h]
    nofun
  | _ => exact hdrafted (by simp [undrafted, Operation.kind])

private theorem kind_ne_ddl_of_isStep {op : Operation} (h : op.kind.isStep = true) :
    op.kind ≠ .ddl := by
  intro hddl
  rw [hddl] at h
  cases h

private theorem matched_of_stepwise {number : Nat} {steps : List TransactionStep}
    {ss : List Statement}
    (h : Stepwise number steps ss) : ∀ s ∈ ss, Matched s := by
  induction h with
  | nil number => nofun
  | cons hstep _ ih =>
    obtain ⟨op, _, hkind, hp⟩ := ofStep_ok hstep
    refine List.forall_mem_append.mpr ⟨fun s hs => ?_, ih⟩
    obtain ⟨t, ht, rfl⟩ := List.mem_map.mp hs
    exact matched_of_ofSimple (kind_ne_ddl_of_isStep hkind) hp t ht

private theorem matched_of_ofOperation {op : Operation} {p : Plan} (hop : op.kind ≠ .ddl)
    (h : ofOperation op = .ok p) : ∀ s ∈ p.statements, Matched s := by
  by_cases htransaction : op.kind = .transaction
  · cases op with
    | transaction steps =>
      obtain ⟨ss, hss, rfl⟩ := ofTransaction_ok h
      exact matched_of_stepwise hss
    | _ => cases htransaction
  · have hsimple : ofSimple op = .ok p := by
      cases op <;> first | exact absurd rfl htransaction | exact h
    exact matched_of_ofSimple hop hsimple

/-! ## Runs -/

private theorem executionOf_of_params {d : Dialect} {s : Statement} (hs : s.params ≠ [])
    {sql : List Char} (hsql : Placeholder.render d.parameterStyle s.chars = .ok sql) (c : Nat) :
    executionOf d c s = .ok (.execute c (String.ofList sql) (some s.params)) := by
  have hrendered : renderedFor d s.chars = .ok (String.ofList sql) := by
    rw [renderedFor, hsql]
    rfl
  rw [executionOf, if_neg (by simpa using hs), hrendered]
  rfl

/-- What the driver is handed for a statement: nothing if a condition of the statement does not
hold, else one text, and all parameters of the statement. -/
def HandedTo (e : Engine) (c : Nat) (s : Statement) (sql : String) (events : List Event) : Prop :=
  (¬ AllMet e.server s.prechecks ∧ events = []) ∨
    ∃ o, events = [⟨.execute c sql (some s.params), o⟩]

private theorem unfolds_handed {e : Engine} {c : Nat} {s : Statement} {sql : String}
    (h : executionOf e.server.dialect c s = .ok (.execute c sql (some s.params))) :
    Unfolds (e.execute c s).run fun events _ => HandedTo e c s sql events := by
  refine (unfolds_execute s).mono fun events r hcarried => ?_
  cases hcarried with
  | unmet hfirst => exact .inl ⟨hfirst.not_allMet, rfl⟩
  | unwritten _ hcall =>
    rw [h] at hcall
    cases hcall
  | executed o _ hcall =>
    rw [h] at hcall
    cases hcall
    exact .inr ⟨o, rfl⟩

/-- Every statement of a plan has as many marks as parameters. A driver that is handed parameters
is handed that text as it is, or one with as many directives for them. -/
theorem placeholders_match {op : Operation} {p : Plan} (hop : op.kind ≠ .ddl)
    (h : ofOperation op = .ok p) {s : Statement} (hs : s ∈ p.statements) :
    Placeholder.count s.chars = .ok s.params.length ∧
      (s.params ≠ [] → ∀ e : Engine, e.server.dialect.parameterStyle ∈ styleNames →
        ∃ sql : String,
          Given s.params.length s.chars e.server.dialect.parameterStyle sql.toList ∧
          ∀ c, Unfolds (e.execute c s).run fun events _ => HandedTo e c s sql events) := by
  have hmatched := matched_of_ofOperation hop h s hs
  refine ⟨hmatched, fun hparams e hstyle => ?_⟩
  obtain ⟨sql, hsql, hgiven⟩ := given_render hmatched hstyle
  refine ⟨String.ofList sql, by rwa [String.toList_ofList], fun c => ?_⟩
  exact unfolds_handed (executionOf_of_params hparams hsql c)

/-- An update whose values and filter try to add marks: question marks in texts, a list, a null. -/
def questioning : Operation :=
  .update "t" [("a", .text "?'"), ("b", .null)]
    (some [("c", .null), ("d", .list [.text "??", .int 1]), ("e", .text "x = ?")])

theorem placeholders_match_questioning :
    ∃ p, ofOperation questioning = .ok p ∧ ∃ s ∈ p.statements, s.params.length = 5 ∧
      Placeholder.count s.chars = .ok s.params.length ∧
      ∀ e : Engine, e.server.dialect.parameterStyle ∈ styleNames →
        ∃ sql : String,
          Given s.params.length s.chars e.server.dialect.parameterStyle sql.toList ∧
          ∀ c, Unfolds (e.execute c s).run fun events _ => HandedTo e c s sql events := by
  have h : ofOperation questioning = .ok _ := rfl
  have hmatch := placeholders_match (by decide) h (List.mem_singleton_self _)
  exact ⟨_, h, _, List.mem_singleton_self _, rfl, hmatch.1, hmatch.2 (List.cons_ne_nil _ _)⟩

end QueryGateway.Proofs.Engine.Binding
