import QueryGateway.Plan.Compile
import QueryGateway.Proofs.Plan.Orderings
import QueryGateway.Proofs.Sql.Names

/-!
What the parts of a compiled statement are made of: rows, filters, orderings and the window of a
reading, each in terms of what the caller gave.
-/

set_option autoImplicit false
set_option relaxedAutoImplicit false

namespace QueryGateway.Proofs.Plan.Parts

open QueryGateway.Sql
open QueryGateway.Plan
open QueryGateway.Proofs.Plan.Orderings
open QueryGateway.Proofs.Success
open QueryGateway.Proofs.Sql.Names

/-! ## Rows -/

theorem columnsOf_ok {field : String} {row : Fields} {ns : List Name}
    (h : columnsOf field row = .ok ns) :
    row ≠ [] ∧ ns.map Name.text = row.keys ∧ ∀ e ∈ row, isStorable e.2 = true := by
  unfold columnsOf at h
  split at h
  · cases h
  · rename_i hne
    have hall := mapM_ok.mp h
    have hentry : ∀ e n, columnOfEntry e = .ok n → n.text = e.1 ∧ isStorable e.2 = true := by
      intro e n he
      simp only [columnOfEntry, bind_ok] at he
      obtain ⟨m, hm, he⟩ := he
      split at he
      · rename_i hs
        cases he
        exact ⟨ofText_ok.mp hm, hs⟩
      · cases he
    refine ⟨by simpa using hne, ?_, ?_⟩
    · exact (map_eq_of_forall₂ hall fun e _ n he => (hentry e n he).1.symm).symm
    · clear h hne
      induction hall with
      | nil => simp
      | cons he _ ih => exact List.forall_mem_cons.mpr ⟨(hentry _ _ he).2, ih⟩

/-! ## Filters -/

def testFor : Value → Test
  | .null => .isNull
  | .list vs => .among vs
  | .tuple vs => .among vs
  | v => .equals v

private theorem testAmong_ok {column : String} {vs : List Value} {t : Test}
    (h : Filter.testAmong column vs = .ok t) : t = .among vs ∧ vs ≠ [] := by
  unfold Filter.testAmong at h
  split at h
  · cases h
  · rename_i hne
    simp only [bind_ok, pure_ok] at h
    obtain ⟨_, _, rfl⟩ := h
    exact ⟨rfl, by simpa using hne⟩

private theorem testOf_ok {column : String} {v : Value} {t : Test}
    (h : Filter.testOf column v = .ok t) :
    t = testFor v ∧ t ≠ .among [] := by
  unfold Filter.testOf at h
  split at h
  · cases h
    exact ⟨rfl, nofun⟩
  · obtain ⟨rfl, hne⟩ := testAmong_ok h
    exact ⟨rfl, by simpa using hne⟩
  · obtain ⟨rfl, hne⟩ := testAmong_ok h
    exact ⟨rfl, by simpa using hne⟩
  · rename_i hnull hlist htuple
    simp only [bind_ok, pure_ok] at h
    obtain ⟨_, _, rfl⟩ := h
    refine ⟨?_, nofun⟩
    cases v with
    | null => exact absurd rfl hnull
    | list vs => exact absurd rfl (hlist vs)
    | tuple vs => exact absurd rfl (htuple vs)
    | _ => rfl

theorem ofFields_ok {fields : Fields} {f : Filter} (h : Filter.ofFields fields = .ok f) :
    (f.map fun c => (c.column.text, c.test)) = (fields.map fun e => (e.1, testFor e.2)) ∧
      ∀ c ∈ f, c.test ≠ .among [] := by
  have hall := mapM_ok.mp h
  have hentry : ∀ e c, Filter.conditionOf e = .ok c →
      (c.column.text, c.test) = (e.1, testFor e.2) ∧ c.test ≠ .among [] := by
    intro e c he
    simp only [Filter.conditionOf, bind_ok, pure_ok] at he
    obtain ⟨n, hn, t, ht, rfl⟩ := he
    obtain ⟨rfl, hne⟩ := testOf_ok ht
    exact ⟨by rw [ofText_ok.mp hn], hne⟩
  refine ⟨(map_eq_of_forall₂ hall fun e _ c he => (hentry e c he).1.symm).symm, ?_⟩
  clear h
  induction hall with
  | nil => simp
  | cons he _ ih => exact List.forall_mem_cons.mpr ⟨(hentry _ _ he).2, ih⟩

theorem readingFilter_ok {filter : Option Fields} {f : Filter} :
    readingFilter filter = .ok f ↔ Filter.ofFields (filter.getD []) = .ok f := by
  cases filter with
  | none => exact Iff.rfl
  | some fields => exact Iff.rfl

theorem requiredFilter_ok {verb : String} {filter : Option Fields} {f : Filter}
    (h : requiredFilter verb filter = .ok f) :
    filter.getD [] ≠ [] ∧ Filter.ofFields (filter.getD []) = .ok f := by
  unfold requiredFilter at h
  split at h
  · exact ⟨by simp, h⟩
  · cases h

/-! ## Readings -/

/-- The columns of a reading as fragments, a star for none. -/
def selection (ns : List Name) : List Fragment :=
  if ns.isEmpty then [.words "*"] else Fragment.names ns

theorem projection_ok {columns : Option (List String)} {fs : List Fragment}
    (h : projection columns = .ok fs) :
    ∃ ns : List Name, ns.map Name.text = columns.getD [] ∧ fs = selection ns := by
  unfold projection at h
  split at h
  · rename_i c cs
    simp only [bind_ok, pure_ok] at h
    obtain ⟨ns, hns, rfl⟩ := h
    have ht := mapM_ofText_ok.mp hns
    refine ⟨ns, ht, ?_⟩
    cases ns with
    | nil => cases ht
    | cons n ns => rfl
  · rename_i hne
    cases h
    refine ⟨[], ?_, rfl⟩
    match columns, hne with
    | none, _ => rfl
    | some [], _ => rfl
    | some (c :: cs), hne => exact absurd rfl (hne c cs)

def sorting (terms : List OrderTerm) : List Fragment :=
  if terms.isEmpty then [] else .words " ORDER BY " :: OrderTerm.listFragments terms

theorem orderingClause_ok {ordering : Option String} {fs : List Fragment}
    (h : orderingClause ordering = .ok fs) :
    ∃ terms : List OrderTerm,
      terms.map (fun t => (t.column.text, t.direction)) = orderOf (ordering.getD "") ∧
      (ordering.getD "" ≠ "" → Asks (ordering.getD "").toList (orderOf (ordering.getD ""))) ∧
      fs = sorting terms := by
  unfold orderingClause at h
  split at h
  · cases h
    exact ⟨[], rfl, fun hne => absurd rfl hne, rfl⟩
  · rename_i s
    split at h
    · rename_i hs
      cases h
      rw [Option.getD_some, String.isEmpty_iff.mp hs]
      exact ⟨[], rfl, fun hne => absurd rfl hne, rfl⟩
    · simp only [bind_ok, pure_ok] at h
      obtain ⟨terms, hterms, rfl⟩ := h
      obtain ⟨hne, horder, hasks⟩ := orderOf_of_ok hterms
      exact ⟨terms, horder, fun _ => hasks, by rw [sorting, if_neg (by simpa using hne)]⟩

theorem checkLimit_ok {limit limit' : Option Int} (h : checkLimit limit = .ok limit') :
    limit' = limit ∧ ∀ n ∈ limit, 1 ≤ n ∧ n ≤ maxRows := by
  unfold checkLimit at h
  split at h
  · cases h
    simp
  · split at h
    · rename_i n hn
      cases h
      simpa using hn
    · cases h

theorem checkOffset_ok {offset offset' : Option Int} (h : checkOffset offset = .ok offset') :
    offset' = offset ∧ ∀ n ∈ offset, 0 ≤ n := by
  unfold checkOffset at h
  split at h
  · cases h
    simp
  · split at h
    · cases h
    · rename_i n hn
      obtain ⟨_, _, rfl⟩ := map_ok.mp h
      simpa using hn

end QueryGateway.Proofs.Plan.Parts
