import QueryGateway.Proofs.Plan.Rows
import QueryGateway.Proofs.Sql.Outside

/-!
What the server makes of the queries that the gateway lets through. The screening looks for words
and marks wherever they stand; what it lets through may still hold a comment behind a sharp sign,
a second statement, or a verb that it does not know.
-/

set_option autoImplicit false
set_option relaxedAutoImplicit false

namespace QueryGateway.Proofs.Plan.Queries

open QueryGateway.Plan
open QueryGateway.Sql
open QueryGateway.Sql.Screening
open QueryGateway.Proofs.Plan.Rows
open QueryGateway.Proofs.Sql.Outside
open QueryGateway.Proofs.Sql.Patterns
open QueryGateway.Proofs.Success

/-- The queries that an operation carries, each with leave to write or without: its own, or those of
its steps. -/
inductive Carries : Operation → String → Bool → Prop
  | own (query : String) (params : Option (List Value)) (allowWrite : Bool) :
    Carries (.execute query params allowWrite) query allowWrite
  | step {steps : List TransactionStep} {step : TransactionStep} {query : String}
    {params : Option (List Value)} {allowWrite : Bool} : step ∈ steps →
      operationOf step = .ok (.execute query params allowWrite) →
        Carries (.transaction steps) query allowWrite

/-- A query that the gateway lets through, by itself or in an operation that has a plan. -/
inductive Admitted (allowWrite : Bool) (q : String) : Prop
  | alone : Screening.query allowWrite (.text q) = .ok q → Admitted allowWrite q
  | carried {op : Operation} {plan : Plan} :
    Plan.ofOperation op = .ok plan → Carries op q allowWrite → Admitted allowWrite q

private theorem screened_of_ofExecute {query : String} {params : Option (List Value)}
    {allowWrite : Bool} {p : Plan} (h : ofExecute query params allowWrite = .ok p) :
    Screened allowWrite query.toList := by
  obtain ⟨query', hquery, _⟩ := ofExecute_ok h
  exact (query_ok_iff.mp hquery).2

private theorem Admitted.screened {allowWrite : Bool} {q : String} (h : Admitted allowWrite q) :
    Screened allowWrite q.toList := by
  cases h with
  | alone hquery => exact (query_ok_iff.mp hquery).2
  | carried hplan hcarries =>
    cases hcarries with
    | own _ params => exact screened_of_ofExecute hplan
    | step hmem hop =>
      obtain ⟨ss, hsteps, _⟩ := ofTransaction_ok hplan
      obtain ⟨p, _, hstep, _⟩ := hsteps.exists_of_mem hmem
      obtain ⟨op, hop', _, hp⟩ := ofStep_ok hstep
      rw [hop] at hop'
      cases hop'
      exact screened_of_ofExecute hp

/-! ## Single statements -/

/-- One statement without comments: white space at most behind the first semicolon. -/
structure IsLone (dashes : List Char → Bool) (s : List Char) : Prop where
  uncommented : ∀ t ∈ parts dashes s, opensComment dashes t = false
  alone : ∀ r ∈ behind? dashes s, r.all isSpacing = true

/-- The words that the screening refuses at the start of a second statement. -/
def refusedBehind (allowWrite : Bool) : List String :=
  if allowWrite then stackedVerbs else writeWords

variable {dashes : List Char → Bool} {allowWrite : Bool} {q : String}

private theorem sharp_of_opensComment (h : Admitted allowWrite q) {t : List Char}
    (hpart : t ∈ parts dashes q.toList) (hopens : opensComment dashes t = true) : ['#'] <+: t := by
  have hmark : ∀ m ∈ commentMarks, ¬ m.toList <+: t := by
    intro m hm hprefix
    have hfound : hasMark commentMarks q.toList = true :=
      hasMark_iff.mpr ⟨m, hm, hprefix.isInfix.trans (suffix_of_mem_partsFrom hpart).isInfix⟩
    have hharmless := h.screened.harmless
    rw [isDangerous, hfound, Bool.or_true, Bool.true_or] at hharmless
    cases hharmless
  rcases opensComment_iff.mp hopens with hsharp | ⟨hdashes, _⟩ | hblock
  · exact hsharp
  · exact absurd hdashes (hmark "--" (by decide))
  · exact absurd hblock (hmark "/*" (by decide))

private theorem beginsWith_behind (h : Admitted allowWrite q) {r : List Char}
    (hbehind : behind? dashes q.toList = some r) :
    beginsWith isSpacing (refusedBehind allowWrite) r = false := by
  obtain ⟨before, hq⟩ := exists_of_behind?_eq hbehind
  have hscreened := h.screened
  rw [hq] at hscreened
  refine Bool.eq_false_iff.mpr fun hbegins => ?_
  cases allowWrite with
  | true =>
    have hharmless := hscreened.harmless
    rw [isDangerous, hasStackedWrite_of_beginsWith hbegins, Bool.true_or, Bool.true_or] at hharmless
    cases hharmless
  | false =>
    have hword := hasWord_of_beginsWith not_isWordPart_of_isSpacing (by decide) hbegins _
      (ends_semicolon before)
    rw [List.append_assoc] at hword
    exact Bool.false_ne_true ((hscreened.reading rfl).symm.trans hword)

/-- A query that is let through is one statement without comments just where no sharp sign stands
outside quotations and comments and where nothing follows its first semicolon. -/
theorem isLone_iff (h : Admitted allowWrite q) (dashes : List Char → Bool) :
    (∀ t ∈ parts dashes q.toList, opensComment dashes t = true → ['#'] <+: t) ∧
      (∀ r ∈ behind? dashes q.toList, beginsWith isSpacing (refusedBehind allowWrite) r = false) ∧
      (IsLone dashes q.toList ↔ (∀ t ∈ parts dashes q.toList, ¬ ['#'] <+: t) ∧
        ∀ r ∈ behind? dashes q.toList, r.all isSpacing = true) := by
  refine ⟨fun t => sharp_of_opensComment h, fun r => beginsWith_behind h, ?_, ?_⟩
  · rintro ⟨huncommented, halone⟩
    refine ⟨fun t ht hsharp => ?_, halone⟩
    have hopens : opensComment dashes t = true := opensComment_iff.mpr (.inl hsharp)
    rw [huncommented t ht] at hopens
    cases hopens
  · rintro ⟨hsharp, halone⟩
    refine ⟨fun t ht => Bool.eq_false_iff.mpr fun hopens => ?_, halone⟩
    exact hsharp t ht (sharp_of_opensComment h ht hopens)

/-- Two dashes begin a comment where white space or nothing follows them. -/
def spaced (s : List Char) : Bool := s.head?.all isSpacing

theorem isLone_iff_deleting :
    Admitted true "DELETE FROM t WHERE a = '#;';" ∧
      IsLone spaced "DELETE FROM t WHERE a = '#;';".toList := by
  have hadmitted : Admitted true "DELETE FROM t WHERE a = '#;';" := .alone (by rfl)
  exact ⟨hadmitted, (isLone_iff hadmitted spaced).2.2.mpr ⟨by decide, by decide⟩⟩

/-- A query that truncates a table behind a semicolon is let through, and a comment with it. -/
theorem not_isLone_truncating :
    Screening.query true (.text "SELECT 1; TRUNCATE TABLE t # x") =
        .ok "SELECT 1; TRUNCATE TABLE t # x" ∧
      behind? spaced "SELECT 1; TRUNCATE TABLE t # x".toList = some " TRUNCATE TABLE t # x".toList ∧
        ¬ IsLone spaced "SELECT 1; TRUNCATE TABLE t # x".toList := by
  refine ⟨by rfl, by decide, fun h => ?_⟩
  exact absurd (h.alone _ (by decide : _ = some " TRUNCATE TABLE t # x".toList)) (by decide)

/-! ## Reading -/

/-- Keywords of statements that change rows, schemas or privileges. -/
def modifyingVerbs : List String :=
  ["insert", "update", "delete", "replace", "load", "call", "create", "alter", "drop", "truncate",
   "rename", "grant", "revoke"]

def unknownVerbs : List String := ["replace", "load", "call", "rename", "grant", "revoke"]

/-- Whether a query begins with a verb that changes something, behind white space and opening
brackets. -/
def modifies (s : List Char) : Bool := beginsWith isOpening modifyingVerbs s

/-- A query that is let through without leave to write begins with a verb that changes something
just where it begins with one that the screening does not know. -/
theorem modifies_iff (h : Admitted false q) :
    modifies q.toList = true ↔ beginsWith isOpening unknownVerbs q.toList = true := by
  have hcover : ∀ k ∈ modifyingVerbs, k ∈ writeWords ∨ k ∈ unknownVerbs := by decide
  have hmem : ∀ k ∈ unknownVerbs, k ∈ modifyingVerbs := by decide
  have hknown : beginsWith isOpening writeWords q.toList ≠ true := by
    intro hbegins
    have hword := hasWord_of_beginsWith not_isWordPart_of_isOpening (by decide) hbegins [] nofun
    exact Bool.false_ne_true ((h.screened.reading rfl).symm.trans hword)
  rw [modifies, beginsWith_iff_exists, beginsWith_iff_exists]
  constructor
  · rintro ⟨k, hk, hspelled⟩
    rcases hcover k hk with hwrite | hunknown
    · exact absurd (beginsWith_iff_exists.mpr ⟨k, hwrite, hspelled⟩) hknown
    · exact ⟨k, hunknown, hspelled⟩
  · rintro ⟨k, hk, hspelled⟩
    exact ⟨k, hmem k hk, hspelled⟩

def reading : Fields := [("type", .text "execute"), ("query", .text "(SELECT 1)")]

theorem modifies_iff_reading :
    Admitted false "(SELECT 1)" ∧ modifies "(SELECT 1)".toList = false := by
  have hplan : (Plan.ofOperation (.transaction [.described reading])).isOk = true := by
    decide +kernel
  have hadmitted : Admitted false "(SELECT 1)" :=
    .carried (ok_getD hplan { kind := .transaction }) (.step (List.mem_singleton_self _) rfl)
  have hother : beginsWith isOpening unknownVerbs "(SELECT 1)".toList ≠ true := by decide
  exact ⟨hadmitted, Bool.eq_false_iff.mpr fun h => hother ((modifies_iff hadmitted).mp h)⟩

/-- A query that replaces rows is let through without leave to write. -/
theorem modifies_replacing :
    Screening.query false (.text "REPLACE INTO t VALUES (1)") = .ok "REPLACE INTO t VALUES (1)" ∧
      modifies "REPLACE INTO t VALUES (1)".toList = true :=
  ⟨by rfl, by decide⟩

end QueryGateway.Proofs.Plan.Queries
