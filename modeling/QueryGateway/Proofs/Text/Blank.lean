import QueryGateway.Proofs.Text.Runs

/-!
White space: its characters, and where it stands around a text and between its words.
-/

set_option autoImplicit false
set_option relaxedAutoImplicit false

namespace QueryGateway.Proofs.Text.Blank

open QueryGateway.Text.Blank
open QueryGateway.Proofs.Text.Runs (dropWhile_parted)

/-! ## Characters -/

def blankCodes : List Nat :=
  List.range' 9 5 ++ List.range' 28 5 ++ [0x85, 0xa0, 0x1680] ++ List.range' 0x2000 11 ++
    [0x2028, 0x2029, 0x202f, 0x205f, 0x3000]

private theorem mem_blankCodes {c : Char} (h : isBlank c = true) : c.toNat ∈ blankCodes := by
  simp only [isBlank, Bool.or_eq_true, Bool.and_eq_true, decide_eq_true_eq, beq_iff_eq] at h
  simp only [blankCodes, List.mem_append, List.mem_range'_1, List.mem_cons, List.not_mem_nil,
    or_false]
  omega

theorem of_isBlank {p : Char → Bool} (hp : blankCodes.all (fun n => p (Char.ofNat n)) = true)
    {c : Char} (h : isBlank c = true) : p c = true := by
  have hall := List.all_eq_true.mp hp c.toNat (mem_blankCodes h)
  rwa [Char.ofNat_toNat] at hall

theorem isBlank_of_class {p : Char → Bool}
    (hp : blankCodes.all (fun n => !p (Char.ofNat n)) = true) {c : Char} (h : p c = true) :
    isBlank c = false := by
  cases hblank : isBlank c with
  | false => rfl
  | true =>
    have hnot := of_isBlank (p := fun c => !p c) hp hblank
    simp [h] at hnot

/-! ## Around a text -/

theorem exists_trim (s : List Char) : ∃ a b : List Char, s = a ++ trim s ++ b ∧
    (∀ c ∈ a, isBlank c = true) ∧ ∀ c ∈ b, isBlank c = true := by
  have hall : ∀ t : List Char, ∀ c ∈ t.takeWhile isBlank, isBlank c = true :=
    fun _ => List.all_eq_true.mp List.all_takeWhile
  refine ⟨s.takeWhile isBlank, ((s.dropWhile isBlank).reverse.takeWhile isBlank).reverse, ?_,
    hall s, ?_⟩
  · rw [trim, strip, List.append_assoc, ← List.reverse_append,
      List.takeWhile_append_dropWhile, List.reverse_reverse, List.takeWhile_append_dropWhile]
  · exact fun c hc => hall _ c (List.mem_reverse.mp hc)

theorem dropBlanks_eq {a t : List Char} (ha : ∀ c ∈ a, isBlank c = true)
    (ht : ∀ c ∈ t.head?, isBlank c = false) : dropBlanks (a ++ t) = t :=
  dropWhile_parted ha ht

theorem strip_eq {p : Char → Bool} {a t b : List Char} (ha : ∀ c ∈ a, p c = true)
    (hb : ∀ c ∈ b, p c = true) (hfirst : ∀ c ∈ t.head?, p c = false)
    (hlast : ∀ c ∈ t.getLast?, p c = false) : strip p (a ++ t ++ b) = t := by
  have hback : ∀ c ∈ b.reverse, p c = true := fun c hc => hb c (List.mem_reverse.mp hc)
  cases t with
  | nil =>
    have hall : (a ++ [] ++ b).dropWhile p = [] :=
      List.dropWhile_eq_nil_iff.mpr (by simpa [or_imp, forall_and] using ⟨ha, hb⟩)
    rw [strip, hall]
    rfl
  | cons c t =>
    have hhead : ∀ d ∈ (c :: t ++ b).head?, p d = false := hfirst
    have hend : ∀ d ∈ (c :: t).reverse.head?, p d = false := by
      rwa [List.head?_reverse]
    rw [strip, List.append_assoc, dropWhile_parted ha hhead, List.reverse_append,
      dropWhile_parted hback hend, List.reverse_reverse]

theorem trim_eq {a t b : List Char} (ha : ∀ c ∈ a, isBlank c = true)
    (hb : ∀ c ∈ b, isBlank c = true) (hfirst : ∀ c ∈ t.head?, isBlank c = false)
    (hlast : ∀ c ∈ t.getLast?, isBlank c = false) : trim (a ++ t ++ b) = t :=
  strip_eq ha hb hfirst hlast

theorem trim_eq_of_ends {s : List Char} (hfirst : ∀ c ∈ s.head?, isBlank c = false)
    (hlast : ∀ c ∈ s.getLast?, isBlank c = false) : trim s = s := by
  have htrim := trim_eq (a := []) (b := []) nofun nofun hfirst hlast
  rwa [List.nil_append, List.append_nil] at htrim

theorem trim_eq_self {s : List Char} (h : ∀ c ∈ s, isBlank c = false) : trim s = s :=
  trim_eq_of_ends (fun c hc => h c (List.mem_of_head? hc)) fun c hc => h c (List.mem_of_getLast? hc)

/-! ## Between words -/

theorem flatten_words (s : List Char) : (words s).flatten = s.filter fun c => !isBlank c := by
  fun_induction words s with
  | case1 => rfl
  | case2 c r hc ih => simp [hc, ih]
  | case3 c hc => simp [hc]
  | case4 c hc d r hd ih => simp_all
  | case5 c hc d r hd w ws hwords ih => simp_all
  | case6 c hc d r hd hwords ih => simp_all

private theorem words_blank {c : Char} (hc : isBlank c = true) (r : List Char) :
    words (c :: r) = words r := by
  rw [words.eq_def]
  exact if_pos hc

private theorem words_append {w rest : List Char} (hne : w ≠ []) (hw : ∀ c ∈ w, isBlank c = false)
    (hrest : ∀ d ∈ rest.head?, isBlank d = true) : words (w ++ rest) = w :: words rest := by
  induction w with
  | nil => exact absurd rfl hne
  | cons c w ih =>
    obtain ⟨hc, hw⟩ := List.forall_mem_cons.mp hw
    cases w with
    | nil =>
      cases rest with
      | nil =>
        rw [List.append_nil, words.eq_def]
        simp only [hc, Bool.false_eq_true, if_false]
        rfl
      | cons d rest =>
        have hd : isBlank d = true := hrest d rfl
        rw [List.singleton_append, words.eq_def]
        simp only [hc, hd, Bool.false_eq_true, if_false, if_true]
    | cons c' w =>
      have hc' : isBlank c' = false := hw c' List.mem_cons_self
      have hwords := ih (List.cons_ne_nil c' w) hw
      rw [List.cons_append] at hwords
      rw [List.cons_append, List.cons_append, words.eq_def]
      simp only [hc, hc', Bool.false_eq_true, if_false, hwords]

theorem words_spaced {ws : List (List Char)}
    (h : ∀ w ∈ ws, w ≠ [] ∧ ∀ c ∈ w, isBlank c = false) :
    words (ws.flatMap fun w => ' ' :: w) = ws := by
  induction ws with
  | nil => rfl
  | cons w ws ih =>
    obtain ⟨⟨hne, hw⟩, hws⟩ := List.forall_mem_cons.mp h
    have hrest : ∀ d ∈ (ws.flatMap fun w => ' ' :: w).head?, isBlank d = true := by
      cases ws with
      | nil => nofun
      | cons _ _ =>
        intro d hd
        cases hd
        rfl
    rw [List.flatMap_cons, List.cons_append, words_blank rfl, words_append hne hw hrest, ih hws]

/-! ## Splitting -/

/-- A word: something without white space in it. -/
def IsWord (w : List Char) : Prop := w ≠ [] ∧ ∀ c ∈ w, isBlank c = false

/-- How white space splits a text: the words stand in order, each up to white space or the end. -/
inductive SplitsInto : List Char → List (List Char) → Prop
  | blank {s : List Char} (hs : ∀ c ∈ s, isBlank c = true) : SplitsInto s []
  | word {a w rest : List Char} {ws : List (List Char)} (ha : ∀ c ∈ a, isBlank c = true)
      (hw : IsWord w) (hend : ∀ c ∈ rest.head?, isBlank c = true) (hrest : SplitsInto rest ws) :
      SplitsInto (a ++ w ++ rest) (w :: ws)

theorem splitsInto_nil {s : List Char} : SplitsInto s [] ↔ ∀ c ∈ s, isBlank c = true := by
  constructor
  · intro h
    cases h with
    | blank hs => exact hs
  · exact .blank

theorem splitsInto_cons {s w : List Char} {ws : List (List Char)} : SplitsInto s (w :: ws) ↔
    ∃ a rest, (∀ c ∈ a, isBlank c = true) ∧ IsWord w ∧ (∀ c ∈ rest.head?, isBlank c = true) ∧
      SplitsInto rest ws ∧ s = a ++ w ++ rest := by
  constructor
  · intro h
    cases h with
    | word ha hw hend hrest => exact ⟨_, _, ha, hw, hend, hrest, rfl⟩
  · rintro ⟨a, rest, ha, hw, hend, hrest, rfl⟩
    exact .word ha hw hend hrest

private theorem words_blank_append {a : List Char} (ha : ∀ c ∈ a, isBlank c = true)
    (t : List Char) :
    words (a ++ t) = words t := by
  induction a with
  | nil => rfl
  | cons c a ih =>
    obtain ⟨hc, ha⟩ := List.forall_mem_cons.mp ha
    rw [List.cons_append, words_blank hc, ih ha]

private theorem SplitsInto.cons_blank {c : Char} (hc : isBlank c = true) {s : List Char}
    {ws : List (List Char)} (h : SplitsInto s ws) : SplitsInto (c :: s) ws := by
  cases h with
  | blank hs => exact .blank (List.forall_mem_cons.mpr ⟨hc, hs⟩)
  | word ha hw hend hrest => exact .word (List.forall_mem_cons.mpr ⟨hc, ha⟩) hw hend hrest

private theorem SplitsInto.cons_word {c d : Char} (hc : isBlank c = false) (hd : isBlank d = false)
    {s w : List Char} {ws : List (List Char)} (h : SplitsInto (d :: s) (w :: ws)) :
    SplitsInto (c :: d :: s) ((c :: w) :: ws) := by
  obtain ⟨a, rest, ha, hw, hend, hrest, hs⟩ := splitsInto_cons.mp h
  cases a with
  | nil =>
    have hword : IsWord (c :: w) := ⟨List.cons_ne_nil c w, List.forall_mem_cons.mpr ⟨hc, hw.2⟩⟩
    exact hs ▸ .word (a := []) nofun hword hend hrest
  | cons e a =>
    obtain ⟨rfl, -⟩ := List.cons.inj hs
    exact absurd (ha d List.mem_cons_self) (by rw [hd]; decide)

theorem splitsInto_words (s : List Char) : SplitsInto s (words s) := by
  fun_induction words s with
  | case1 => exact .blank nofun
  | case2 c r hc ih => exact ih.cons_blank hc
  | case3 c hc =>
    have hword : IsWord [c] := ⟨List.cons_ne_nil c [], by simpa using hc⟩
    exact .word (a := []) nofun hword (by simp) (.blank (by simp))
  | case4 c hc d r hd ih =>
    have hword : IsWord [c] := ⟨List.cons_ne_nil c [], by simpa using hc⟩
    exact .word (a := []) nofun hword (by simpa using hd) ih
  | case5 c hc d r hd w ws hwords ih =>
    rw [hwords] at ih ⊢
    exact ih.cons_word (by simpa using hc) (by simpa using hd)
  | case6 c hc d r hd hwords ih =>
    -- The rest starts with a word, so it is not without words.
    rw [hwords, splitsInto_nil] at ih
    exact absurd (ih d List.mem_cons_self) hd

theorem words_eq_iff {s : List Char} {ws : List (List Char)} : words s = ws ↔ SplitsInto s ws := by
  constructor
  · rintro rfl
    exact splitsInto_words s
  · intro h
    induction h with
    | blank hs =>
      have hwords := words_blank_append hs []
      rwa [List.append_nil] at hwords
    | word ha hw hend _ ih =>
      rw [List.append_assoc, words_blank_append ha, words_append hw.1 hw.2 hend, ih]

end QueryGateway.Proofs.Text.Blank
