import Mathlib.Data.List.Nodup
import Mathlib.Data.List.Perm.Basic
import QueryGateway.Proofs.Sql.Marks

/-!
Percent directives as a driver reads them. A text that was written for such a driver is read as the
text that it was written from, with an argument in the place of each parameter mark.
-/

set_option autoImplicit false
set_option relaxedAutoImplicit false

namespace QueryGateway.Proofs.Sql.Directives

open QueryGateway.Sql.Placeholder
open QueryGateway.Proofs.Sql.Marks

/-- What formatting puts into a text: a character, or the next argument. -/
inductive Directive
  | char (c : Char)
  | argument
  deriving DecidableEq, Repr

/-- What a text with percent directives puts together, nothing where it holds another directive than
those for a percent sign and for an argument as text, or a percent sign alone. -/
def directives? : List Char → Option (List Directive)
  | [] => some []
  | '%' :: '%' :: r => (directives? r).map (.char '%' :: ·)
  | '%' :: 's' :: r => (directives? r).map (.argument :: ·)
  | '%' :: _ => none
  | c :: r => (directives? r).map (.char c :: ·)

def withArguments (places : List Nat) (start : Nat) : List Char → List Directive
  | [] => []
  | c :: r =>
    (if places.contains start then .argument else .char c) :: withArguments places (start + 1) r

private theorem directives?_cons {c : Char} (hc : c ≠ '%') (r : List Char) :
    directives? (c :: r) = (directives? r).map (.char c :: ·) := by
  rw [directives?.eq_def]
  split <;> simp_all

/-- A driver reads a text written for it as the text that it was written from, with an argument at
each of the places. -/
private theorem directives?_percentFrom (places : List Nat) (start : Nat) (s : List Char) :
    directives? (percentFrom places start s) = some (withArguments places start s) := by
  induction s generalizing start with
  | nil => rfl
  | cons c r ih =>
    rw [percentFrom, withArguments]
    split
    · rw [List.cons_append, List.cons_append, List.nil_append, directives?, ih]
      rfl
    · split
      · rename_i hc
        rw [List.cons_append, List.cons_append, List.nil_append, directives?, ih, hc]
        rfl
      · rename_i hc
        rw [List.singleton_append, directives?_cons hc, ih]
        rfl

private theorem count_withArguments (places : List Nat) (start : Nat) (s : List Char) :
    (withArguments places start s).count .argument =
      (List.range' start s.length).countP places.contains := by
  induction s generalizing start with
  | nil => rfl
  | cons c r ih =>
    rw [withArguments, List.length_cons, List.range'_succ, List.countP_cons, List.count_cons, ih]
    split <;> simp_all

theorem count_withArguments_of_nodup {places : List Nat} {s : List Char} (hnodup : places.Nodup)
    (hlt : ∀ n ∈ places, n < s.length) :
    (withArguments places 0 s).count .argument = places.length := by
  have hperm : ((List.range' 0 s.length).filter places.contains).Perm places := by
    refine (List.perm_ext_iff_of_nodup (List.Nodup.filter _ List.nodup_range') hnodup).mpr ?_
    intro n
    simp only [List.mem_filter, List.mem_range'_1, List.contains_iff_mem]
    exact ⟨And.right, fun hn => ⟨⟨Nat.zero_le n, by simpa using hlt n hn⟩, hn⟩⟩
  rw [count_withArguments, List.countP_eq_length_filter, hperm.length_eq]

/-- What a driver is given for a text with some number of marks, by the name of its style: the text
as it is, or one with percent directives of which as many stand for an argument. -/
inductive Given (n : Nat) (s : List Char) : String → List Char → Prop
  | asIs : Given n s "qmark" s
  | directed {name : String} {sql : List Char} {ds : List Directive} :
      name ∈ ["format", "pyformat"] → directives? sql = some ds → ds.count .argument = n →
      Given n s name sql

def styleNames : List String := ["qmark", "format", "pyformat"]

private theorem renderFor_percent {s : List Char} {n : Nat} (h : count s = .ok n) :
    ∃ sql ds, renderFor .percent s = .ok sql ∧ directives? sql = some ds ∧
      ds.count .argument = n := by
  cases hplaces : positions s with
  | error f =>
    rw [count, hplaces] at h
    cases h
  | ok places =>
    rw [count, hplaces] at h
    cases h
    have hlt : ∀ n ∈ places, n < s.length := fun n hn =>
      (List.getElem?_eq_some_iff.mp (mark_of_positions hplaces n hn)).1
    refine ⟨_, _, ?_, directives?_percentFrom places 0 s,
      count_withArguments_of_nodup (nodup_positions hplaces) hlt⟩
    rw [renderFor, hplaces]
    rfl

theorem given_render {s : List Char} {n : Nat} (h : count s = .ok n) {name : String}
    (hname : name ∈ styleNames) : ∃ sql, render name s = .ok sql ∧ Given n s name sql := by
  simp only [styleNames, List.mem_cons, List.not_mem_nil, or_false] at hname
  obtain ⟨sql, ds, hsql, hds, hcount⟩ := renderFor_percent h
  rcases hname with rfl | rfl | rfl
  · exact ⟨s, rfl, .asIs⟩
  · exact ⟨sql, hsql, .directed (by decide) hds hcount⟩
  · exact ⟨sql, hsql, .directed (by decide) hds hcount⟩

example : (directives? "a = %s AND b LIKE '%%?' LIMIT %s".toList).map (·.count .argument) =
    some 2 := by decide

end QueryGateway.Proofs.Sql.Directives
