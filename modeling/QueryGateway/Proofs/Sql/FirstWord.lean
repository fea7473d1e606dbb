import QueryGateway.Proofs.Sql.Marks
import QueryGateway.Proofs.Text.LetterCase
import QueryGateway.Proofs.Text.Runs
import QueryGateway.Sql.Screening

/-!
The word that a statement opens with, which tells what kind of statement it is. The screening of
queries sees it among the words of the text, and writing parameter marks the way a driver wants
leaves it alone.
-/

set_option autoImplicit false
set_option relaxedAutoImplicit false

namespace QueryGateway.Proofs.Sql.FirstWord

open QueryGateway.Sql
open QueryGateway.Text
open QueryGateway.Text.Runs (kindOf)
open QueryGateway.Proofs.Sql.Marks
open QueryGateway.Proofs.Text.LetterCase (toNat_lt_of_toLower)
open QueryGateway.Proofs.Text.Runs

/-- The first word of a text, after white space; nothing if something else comes first. -/
def firstWord (s : List Char) : List Char :=
  (s.dropWhile fun c => kindOf c == .blank).takeWhile fun c => kindOf c == .word

/-- Whether a text opens with one of some words in small letters, its own in any case. -/
def opensWith (words : List String) (s : List Char) : Bool :=
  words.any fun k => (firstWord s).map Char.toLower == k.toList

theorem opensWith_congr {s t : List Char} (h : firstWord s = firstWord t) (words : List String) :
    opensWith words s = opensWith words t := by
  rw [opensWith, opensWith, h]

private theorem firstWord_cons {c : Char} (hc : kindOf c ≠ .blank) (r : List Char) :
    firstWord (c :: r) = (c :: r).takeWhile fun c => kindOf c == .word := by
  rw [firstWord, List.dropWhile_cons_of_neg (by simpa using hc)]

theorem firstWord_append {s t : List Char} {b : Char} (hs : ∀ c ∈ s, kindOf c = .word)
    (hne : s ≠ []) (hb : kindOf b ≠ .word) : firstWord (s ++ b :: t) = s := by
  obtain ⟨c, r, rfl⟩ := List.exists_cons_of_ne_nil hne
  have hc : kindOf c ≠ .blank := by
    rw [hs c List.mem_cons_self]
    nofun
  rw [List.cons_append, firstWord_cons hc, ← List.cons_append]
  exact takeWhile_parted (by simpa using hs) (by simpa using hb)

/-! ## Screening -/

private theorem mem_ofText_firstWord {s : List Char} (hne : firstWord s ≠ []) :
    ⟨.word, firstWord s⟩ ∈ Runs.ofText s := by
  refine word_mem_ofText_iff.mpr ⟨s.takeWhile fun c => kindOf c == .blank,
    (s.dropWhile fun c => kindOf c == .blank).dropWhile fun c => kindOf c == .word, ?_, hne,
    fun c hc => by simpa using List.mem_takeWhile_imp hc, fun c hc hkind => ?_,
    fun d hd => by simpa using head?_dropWhile d hd⟩
  · rw [firstWord, List.takeWhile_append_dropWhile, List.takeWhile_append_dropWhile]
  · have hblank := List.mem_takeWhile_imp (List.mem_of_getLast? hc)
    simp [hkind] at hblank

private theorem fold_eq_toLower {c : Char} (h : c.toLower.toNat < 128) :
    LetterCase.fold c = c.toLower := by
  rw [LetterCase.fold, if_pos (toNat_lt_of_toLower h)]

theorem isKeyword_of_toLower {keyword : String} {s : List Char}
    (hascii : ∀ c ∈ keyword.toList, c.toNat < 128) (h : s.map Char.toLower = keyword.toList) :
    LetterCase.isKeyword keyword s = true := by
  have hfold : s.map LetterCase.fold = s.map Char.toLower := by
    refine List.map_congr_left fun c hc => fold_eq_toLower (hascii _ ?_)
    rw [← h]
    exact List.mem_map_of_mem hc
  rw [LetterCase.isKeyword, hfold, h]
  exact beq_self_eq_true _

theorem opensWith_eq_false {words openings : List String} {s : List Char}
    (hwords : ∀ k ∈ openings,
      k ∈ words ∧ k.toList ≠ [] ∧ k.toList.all (fun c => c.toNat < 128) = true)
    (h : Screening.hasWord words s = false) : opensWith openings s = false := by
  refine List.any_eq_false.mpr fun k hk hopens => ?_
  obtain ⟨hmem, hne, hall⟩ := hwords k hk
  have hascii : ∀ c ∈ k.toList, c.toNat < 128 := by simpa using hall
  have heq : (firstWord s).map Char.toLower = k.toList := by simpa using hopens
  have hfirst : firstWord s ≠ [] := by
    intro hnil
    rw [hnil] at heq
    exact hne heq.symm
  have hone : Screening.isOneOf words ⟨.word, firstWord s⟩ = true :=
    List.any_eq_true.mpr ⟨k, hmem, isKeyword_of_toLower hascii heq⟩
  exact List.any_eq_false.mp h _ (mem_ofText_firstWord hfirst) hone

/-! ## Marks -/

private theorem kindOf_question : kindOf '?' = .other := by decide

private theorem kindOf_percent : kindOf '%' = .other := by decide

variable {places : List Nat} {start : Nat}

private theorem percentFrom_cons (c : Char) (r : List Char)
    (h : ∀ i, start + i ∈ places → (c :: r)[i]? = some '?') :
    (∀ i, start + 1 + i ∈ places → r[i]? = some '?') ∧
      (kindOf c = .other ∧ (∃ t, Placeholder.percentFrom places start (c :: r) = '%' :: t) ∨
        Placeholder.percentFrom places start (c :: r) =
          c :: Placeholder.percentFrom places (start + 1) r) := by
  have hrest : ∀ i, start + 1 + i ∈ places → r[i]? = some '?' := by
    intro i hi
    rw [Nat.add_right_comm] at hi
    exact h (i + 1) hi
  refine ⟨hrest, ?_⟩
  rw [Placeholder.percentFrom]
  by_cases hplace : start ∈ places
  · have hc : c = '?' := Option.some.inj (h 0 hplace)
    subst hc
    exact .inl ⟨kindOf_question, _, by rw [if_pos (by simpa using hplace)]; rfl⟩
  · rw [if_neg (by simpa using hplace)]
    by_cases hc : c = '%'
    · subst hc
      exact .inl ⟨kindOf_percent, _, by rw [if_pos rfl]; rfl⟩
    · rw [if_neg hc]
      exact .inr rfl

private theorem takeWhile_percentFrom {s : List Char}
    (h : ∀ i, start + i ∈ places → s[i]? = some '?') :
    (Placeholder.percentFrom places start s).takeWhile (fun c => kindOf c == .word) =
      s.takeWhile fun c => kindOf c == .word := by
  induction s generalizing start with
  | nil => rfl
  | cons c r ih =>
    obtain ⟨hr, ⟨hc, t, ht⟩ | hcopied⟩ := percentFrom_cons c r h
    · rw [ht, List.takeWhile_cons_of_neg (by decide), List.takeWhile_cons_of_neg (by simp [hc])]
    · rw [hcopied, List.takeWhile_cons, List.takeWhile_cons, ih hr]

private theorem firstWord_percentFrom {s : List Char}
    (h : ∀ i, start + i ∈ places → s[i]? = some '?') :
    firstWord (Placeholder.percentFrom places start s) = firstWord s := by
  induction s generalizing start with
  | nil => rfl
  | cons c r ih =>
    have hword := takeWhile_percentFrom h
    obtain ⟨hr, ⟨hc, t, ht⟩ | hcopied⟩ := percentFrom_cons c r h
    · have hblank : kindOf c ≠ .blank := by simp [hc]
      have hpercent : kindOf '%' ≠ .blank := by decide
      rw [ht] at hword ⊢
      rw [firstWord_cons hblank, firstWord_cons hpercent, hword]
    · rw [hcopied] at hword ⊢
      by_cases hblank : kindOf c = .blank
      · have hrest := ih hr
        simp only [firstWord] at hrest ⊢
        rw [List.dropWhile_cons_of_pos (by simp [hblank]),
          List.dropWhile_cons_of_pos (by simp [hblank]), hrest]
      · rw [firstWord_cons hblank, firstWord_cons hblank, hword]

theorem firstWord_render {style : String} {s t : List Char}
    (h : Placeholder.render style s = .ok t) : firstWord t = firstWord s := by
  unfold Placeholder.render at h
  split at h
  · rename_i style hstyle
    cases style with
    | question =>
      cases h
      rfl
    | percent =>
      cases hplaces : Placeholder.positions s with
      | error f =>
        rw [Placeholder.renderFor, hplaces] at h
        cases h
      | ok places =>
        rw [Placeholder.renderFor, hplaces] at h
        cases h
        have hmarks := mark_of_positions hplaces
        exact firstWord_percentFrom fun i hi => hmarks i (by rwa [Nat.zero_add] at hi)
  · cases h

end QueryGateway.Proofs.Sql.FirstWord
