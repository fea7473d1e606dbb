import Mathlib.Data.List.Basic
import Mathlib.Data.List.TakeWhile
import QueryGateway.Text.Parts

/-!
The runs of a text that is put together from others, and the words that stand in a text by
themselves. Runs never cross a place where the kind of character changes, so texts that meet at
such a place can be read one after the other.
-/

set_option autoImplicit false
set_option relaxedAutoImplicit false

namespace QueryGateway.Proofs.Text.Runs

open QueryGateway.Text.Runs

/-! ## Spans -/

section Spans

variable {α : Type} {p : α → Bool}

theorem head?_dropWhile {s : List α} :
    ∀ d ∈ (s.dropWhile p).head?, p d = false := by
  intro d hd
  have hfirst := List.head?_dropWhile_not p s
  rw [Option.mem_def.mp hd] at hfirst
  simpa using hfirst

theorem takeWhile_parted {w rest : List α} (hw : ∀ c ∈ w, p c = true)
    (hrest : ∀ d ∈ rest.head?, p d = false) : (w ++ rest).takeWhile p = w := by
  rw [List.takeWhile_append_of_pos hw]
  cases rest with
  | nil => exact List.append_nil w
  | cons d rest => rw [List.takeWhile_cons_of_neg (by simp [hrest d rfl]), List.append_nil]

theorem dropWhile_parted {w rest : List α} (hw : ∀ c ∈ w, p c = true)
    (hrest : ∀ d ∈ rest.head?, p d = false) : (w ++ rest).dropWhile p = rest := by
  rw [List.dropWhile_append_of_pos hw]
  cases rest with
  | nil => rfl
  | cons d rest => exact List.dropWhile_cons_of_neg (by simp [hrest d rfl])

end Spans

/-! ## Texts put together -/

private theorem ofText_cons (c : Char) (r : List Char) :
    ofText (c :: r) = ⟨kindOf c, c :: r.takeWhile fun d => kindOf d == kindOf c⟩ ::
      ofText (r.dropWhile fun d => kindOf d == kindOf c) := by
  induction r generalizing c with
  | nil => rfl
  | cons d r ih =>
    rw [ofText, ih d]
    by_cases hkind : kindOf d = kindOf c
    · simp [hkind]
    · simp [hkind, ih d]

/-- Two texts of which one does not go on with the kind of character that the other ends with. -/
def Parted (s t : List Char) : Prop := ∀ c ∈ s.getLast?, ∀ d ∈ t.head?, kindOf c ≠ kindOf d

theorem parted_of_ends {s t : List Char} {k : Kind} (hs : ∀ c ∈ s.getLast?, kindOf c = k)
    (ht : ∀ d ∈ t.head?, kindOf d ≠ k) : Parted s t :=
  fun c hc d hd heq => ht d hd (heq ▸ hs c hc)

private theorem parted_of_starts {s t : List Char} {k : Kind} (hs : ∀ c ∈ s.getLast?, kindOf c ≠ k)
    (ht : ∀ d ∈ t.head?, kindOf d = k) : Parted s t :=
  fun c hc d hd heq => hs c hc (heq.trans (ht d hd))

private theorem ofText_cons_of_runs (c : Char) {s : List Char} {r : Run} {rs : List Run}
    (h : ofText s = r :: rs) :
    ofText (c :: s) =
      if r.kind = kindOf c then ⟨r.kind, c :: r.text⟩ :: rs else ⟨kindOf c, [c]⟩ :: r :: rs := by
  rw [ofText, h]

theorem ofText_append {s t : List Char} (h : Parted s t) :
    ofText (s ++ t) = ofText s ++ ofText t := by
  induction s with
  | nil => rfl
  | cons c s ih =>
    cases s with
    | nil =>
      cases t with
      | nil => rfl
      | cons d t =>
        have hne : kindOf d ≠ kindOf c := (h c rfl d rfl).symm
        simp [ofText_cons c, hne, ofText]
    | cons c' s =>
      -- `c` joins the first run of what follows or not, and does not see the runs behind that
      obtain ⟨r, rs, hruns⟩ : ∃ r rs, ofText (c' :: s) = r :: rs := ⟨_, _, ofText_cons c' s⟩
      have hrest : ofText (c' :: s ++ t) = r :: (rs ++ ofText t) := by
        rw [ih fun x hx => h x (by simpa using hx), hruns, List.cons_append]
      rw [List.cons_append, ofText_cons_of_runs c hrest, ofText_cons_of_runs c hruns]
      split <;> rfl

theorem ofText_uniform {k : Kind} {s : List Char} (hne : s ≠ []) (h : ∀ c ∈ s, kindOf c = k) :
    ofText s = [⟨k, s⟩] := by
  obtain ⟨c, r, rfl⟩ := List.exists_cons_of_ne_nil hne
  obtain ⟨rfl, hr⟩ := List.forall_mem_cons.mp h
  have hall : ∀ d ∈ r, (kindOf d == kindOf c) = true := by simpa using hr
  rw [ofText_cons, List.takeWhile_eq_self_iff.mpr hall, List.dropWhile_eq_nil_iff.mpr hall]
  rfl

/-! ## Texts taken apart -/

theorem exists_of_ofText_eq_cons {s : List Char} {r : Run} {rs : List Run}
    (h : ofText s = r :: rs) :
    ∃ t, s = r.text ++ t ∧ ofText t = rs ∧ r.text ≠ [] ∧ (∀ c ∈ r.text, kindOf c = r.kind) ∧
      ∀ d ∈ t.head?, kindOf d ≠ r.kind := by
  cases s with
  | nil => cases h
  | cons c s =>
    rw [ofText_cons] at h
    obtain ⟨rfl, rfl⟩ := List.cons.inj h
    refine ⟨_, ?_, rfl, List.cons_ne_nil _ _, ?_, ?_⟩
    · rw [List.cons_append, List.takeWhile_append_dropWhile]
    · refine List.forall_mem_cons.mpr ⟨rfl, fun d hd => ?_⟩
      simpa using List.mem_takeWhile_imp hd
    · intro d hd hkind
      have hfirst := head?_dropWhile d hd
      simp [hkind] at hfirst

/-- Where the runs of a text are cut, so is the text. -/
theorem exists_of_ofText_eq_append {s : List Char} {rs qs : List Run} (h : ofText s = rs ++ qs) :
    ∃ t u, s = t ++ u ∧ ofText t = rs ∧ ofText u = qs ∧ Parted t u := by
  induction rs generalizing s with
  | nil => exact ⟨[], s, rfl, rfl, h, nofun⟩
  | cons r rs ih =>
    obtain ⟨s', rfl, hs', hne, hkind, hstart⟩ := exists_of_ofText_eq_cons h
    obtain ⟨t, u, rfl, ht, hu, hparted⟩ := ih hs'
    have hlast : ∀ c ∈ r.text.getLast?, kindOf c = r.kind :=
      fun c hc => hkind c (List.mem_of_getLast? hc)
    refine ⟨r.text ++ t, u, (List.append_assoc _ _ _).symm, ?_, hu, ?_⟩
    · have hjoin : Parted r.text t := parted_of_ends hlast fun d hd => hstart d (by
        rw [List.head?_append, Option.mem_def.mp hd]
        rfl)
      rw [ofText_append hjoin, ofText_uniform hne hkind, ht]
      rfl
    · cases t with
      | nil => simpa using parted_of_ends hlast hstart
      | cons d t => simpa [Parted] using hparted

private theorem ofText_eq_nil_iff {s : List Char} : ofText s = [] ↔ s = [] := by
  cases s with
  | nil => exact iff_of_true rfl rfl
  | cons c s =>
    rw [ofText_cons]
    exact iff_of_false (List.cons_ne_nil _ _) (List.cons_ne_nil _ _)

theorem exists_last_run (s : List Char) (c : Char) :
    ∃ rs r, ofText (s ++ [c]) = rs ++ [r] ∧ r.text.getLast? = some c := by
  have hne : ofText (s ++ [c]) ≠ [] := fun h =>
    List.append_ne_nil_of_right_ne_nil s (List.cons_ne_nil c []) (ofText_eq_nil_iff.mp h)
  obtain ⟨rs, r, hruns⟩ := (List.eq_nil_or_concat' _).resolve_left hne
  obtain ⟨t, u, hs, _, hu, _⟩ := exists_of_ofText_eq_append hruns
  obtain ⟨v, rfl, hv, hr, _⟩ := exists_of_ofText_eq_cons hu
  rw [ofText_eq_nil_iff.mp hv, List.append_nil] at hs
  refine ⟨rs, r, hruns, ?_⟩
  rw [← List.getLast?_append_of_ne_nil t hr, ← hs, List.getLast?_concat]

/-! ## Whole words -/

/-- A word that stands between two texts by itself: neither of them goes on with it. -/
structure Stands (before w after : List Char) : Prop where
  nonempty : w ≠ []
  word : ∀ c ∈ w, kindOf c = .word
  left : ∀ c ∈ before.getLast?, kindOf c ≠ .word
  right : ∀ d ∈ after.head?, kindOf d ≠ .word

theorem ends_append {s t : List Char} {k : Kind} (hs : ∀ c ∈ s.getLast?, kindOf c ≠ k)
    (ht : ∀ c ∈ t, kindOf c ≠ k) : ∀ c ∈ (s ++ t).getLast?, kindOf c ≠ k := by
  intro c hc
  rcases List.eq_nil_or_concat' t with rfl | ⟨t, d, rfl⟩
  · exact hs c (by rwa [List.append_nil] at hc)
  · rw [← List.append_assoc, List.getLast?_concat] at hc
    exact ht c (by simp [Option.mem_some.mp hc])

theorem Stands.ofText_eq {before w after : List Char} (h : Stands before w after) :
    ofText (before ++ (w ++ after)) = ofText before ++ ⟨.word, w⟩ :: ofText after := by
  have hfront : Parted before (w ++ after) := parted_of_starts h.left fun d hd => by
    rw [List.head?_append_of_ne_nil _ h.nonempty] at hd
    exact h.word d (List.mem_of_head? hd)
  have hback : Parted w after :=
    parted_of_ends (fun c hc => h.word c (List.mem_of_getLast? hc)) h.right
  rw [ofText_append hfront, ofText_append hback, ofText_uniform h.nonempty h.word]
  rfl

theorem Stands.of_starts {s before : List Char} {w : Run} {qs : List Run} (hkind : w.kind = .word)
    (hbefore : ∀ c ∈ before.getLast?, kindOf c ≠ .word) (h : ofText s = w :: qs) :
    ∃ after, s = w.text ++ after ∧ Stands before w.text after ∧ ofText after = qs := by
  obtain ⟨after, rfl, hafter, hne, hword, hright⟩ := exists_of_ofText_eq_cons h
  rw [hkind] at hword hright
  exact ⟨after, rfl, ⟨hne, hword, hbefore, hright⟩, hafter⟩

theorem Stands.of_ofText {s : List Char} {w : Run} {rs qs : List Run} (hkind : w.kind = .word)
    (h : ofText s = rs ++ w :: qs) :
    ∃ before after, s = before ++ (w.text ++ after) ∧ Stands before w.text after ∧
      ofText after = qs := by
  obtain ⟨before, t, rfl, _, ht, hparted⟩ := exists_of_ofText_eq_append h
  have hbefore : ∀ c ∈ before.getLast?, kindOf c ≠ .word := by
    intro c hc
    obtain ⟨after, rfl, _, hne, hword, _⟩ := exists_of_ofText_eq_cons ht
    obtain ⟨d, rest, hd⟩ := List.exists_cons_of_ne_nil hne
    have hmeet := hparted c hc d (by rw [hd]; rfl)
    rwa [hword d (by rw [hd]; exact List.mem_cons_self), hkind] at hmeet
  obtain ⟨after, rfl, hstands, hafter⟩ := Stands.of_starts hkind hbefore ht
  exact ⟨before, after, rfl, hstands, hafter⟩

theorem word_mem_ofText_iff {s w : List Char} :
    ⟨.word, w⟩ ∈ ofText s ↔
      ∃ before after, s = before ++ (w ++ after) ∧ Stands before w after := by
  constructor
  · intro h
    obtain ⟨rs, qs, hruns⟩ := List.append_of_mem h
    obtain ⟨before, after, hs, hstands, _⟩ := Stands.of_ofText rfl hruns
    exact ⟨before, after, hs, hstands⟩
  · rintro ⟨before, after, rfl, h⟩
    rw [h.ofText_eq]
    exact List.mem_append_right _ List.mem_cons_self

end QueryGateway.Proofs.Text.Runs
