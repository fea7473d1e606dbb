import QueryGateway.Text.Parts

/-!
Texts that are cut at a character. The pieces hold no separator, and what was cut off fits together
again.
-/

set_option autoImplicit false
set_option relaxedAutoImplicit false

namespace QueryGateway.Proofs.Text.Split

open QueryGateway.Text.Split

variable {sep : Char} {s a b : List Char}

/-! ## Pieces -/

private theorem splitOn_cons_of_ne {c : Char} (h : c ≠ sep) (s : List Char) :
    ∃ p ps, splitOn sep s = p :: ps ∧ splitOn sep (c :: s) = (c :: p) :: ps := by
  cases hs : splitOn sep s with
  | cons p ps =>
    refine ⟨p, ps, rfl, ?_⟩
    rw [splitOn, if_neg h, hs]
  | nil =>
    cases s with
    | nil => cases hs
    | cons d s =>
      rw [splitOn] at hs
      split at hs
      · cases hs
      · split at hs <;> cases hs

theorem splitOn_of_not_mem (h : sep ∉ s) : splitOn sep s = [s] := by
  induction s with
  | nil => rfl
  | cons c s ih =>
    obtain ⟨hc, hs⟩ : sep ≠ c ∧ sep ∉ s := by simpa using h
    obtain ⟨p, ps, hsplit, hcons⟩ := splitOn_cons_of_ne (Ne.symm hc) s
    rw [ih hs] at hsplit
    obtain ⟨rfl, rfl⟩ := List.cons.inj hsplit
    exact hcons

theorem not_mem_of_mem_splitOn : ∀ p ∈ splitOn sep s, sep ∉ p := by
  induction s with
  | nil => simp [splitOn]
  | cons c s ih =>
    by_cases hc : c = sep
    · rw [splitOn, if_pos hc]
      exact List.forall_mem_cons.mpr ⟨List.not_mem_nil, ih⟩
    · obtain ⟨p, ps, hsplit, hcons⟩ := splitOn_cons_of_ne hc s
      rw [hsplit] at ih
      obtain ⟨hp, hps⟩ := List.forall_mem_cons.mp ih
      rw [hcons]
      refine List.forall_mem_cons.mpr ⟨fun hmem => ?_, hps⟩
      rcases List.mem_cons.mp hmem with rfl | hmem
      · exact hc rfl
      · exact hp hmem

theorem splitOn_ne_nil (sep : Char) (s : List Char) : splitOn sep s ≠ [] := by
  cases s with
  | nil => simp [splitOn]
  | cons c r =>
    rw [splitOn]
    split
    · simp
    · split <;> simp

theorem length_splitOn (sep : Char) (s : List Char) :
    (splitOn sep s).length = s.count sep + 1 := by
  induction s with
  | nil => rfl
  | cons c s ih =>
    by_cases hc : c = sep
    · rw [splitOn, if_pos hc, List.length_cons, ih, hc, List.count_cons_self]
    · obtain ⟨p, ps, hsplit, hcons⟩ := splitOn_cons_of_ne hc s
      rw [hsplit, List.length_cons] at ih
      rw [hcons, List.length_cons, ih, List.count_cons_of_ne hc]

private theorem splitOn_append {p : List Char} (h : sep ∉ p) (s : List Char) :
    splitOn sep (p ++ sep :: s) = p :: splitOn sep s := by
  induction p with
  | nil => simp [splitOn]
  | cons c p ih =>
    obtain ⟨hc, hp⟩ : sep ≠ c ∧ sep ∉ p := by simpa using h
    rw [List.cons_append, splitOn, if_neg (Ne.symm hc), ih hp]

/-! ## Joins -/

theorem joinWith_cons (p : List Char) {ps : List (List Char)} (h : ps ≠ []) :
    joinWith [sep] (p :: ps) = p ++ sep :: joinWith [sep] ps := by
  cases ps with
  | nil => exact absurd rfl h
  | cons q ps => rw [joinWith, List.append_assoc, List.singleton_append]

theorem joinWith_eq_append_flatMap (p : List Char) (ps : List (List Char)) :
    joinWith [sep] (p :: ps) = p ++ ps.flatMap fun q => sep :: q := by
  induction ps generalizing p with
  | nil => exact (List.append_nil p).symm
  | cons q ps ih =>
    rw [joinWith_cons p (List.cons_ne_nil q ps), ih]
    rfl

theorem joinWith_splitOn (sep : Char) (s : List Char) : joinWith [sep] (splitOn sep s) = s := by
  induction s with
  | nil => rfl
  | cons c s ih =>
    by_cases hc : c = sep
    · rw [splitOn, if_pos hc, joinWith_cons [] (splitOn_ne_nil sep s), ih, hc]
      rfl
    · obtain ⟨p, ps, hsplit, hcons⟩ := splitOn_cons_of_ne hc s
      rw [hsplit] at ih
      rw [hcons, ← ih]
      cases ps <;> rfl

theorem splitOn_joinWith {ps : List (List Char)} (hne : ps ≠ []) (h : ∀ p ∈ ps, sep ∉ p) :
    splitOn sep (joinWith [sep] ps) = ps := by
  induction ps with
  | nil => exact absurd rfl hne
  | cons p ps ih =>
    obtain ⟨hp, hps⟩ := List.forall_mem_cons.mp h
    cases ps with
    | nil => exact splitOn_of_not_mem hp
    | cons q ps =>
      have hrest : q :: ps ≠ [] := List.cons_ne_nil q ps
      rw [joinWith_cons p hrest, splitOn_append hp, ih hrest hps]

theorem mem_joinWith {c : Char} {ps : List (List Char)} (h : c ∈ joinWith [sep] ps) :
    c = sep ∨ ∃ p ∈ ps, c ∈ p := by
  induction ps with
  | nil => cases h
  | cons p ps ih =>
    cases ps with
    | nil => exact .inr ⟨p, List.mem_cons_self, h⟩
    | cons q ps =>
      rw [joinWith_cons p (List.cons_ne_nil q ps)] at h
      rcases List.mem_append.mp h with hp | hrest
      · exact .inr ⟨p, List.mem_cons_self, hp⟩
      · rcases List.mem_cons.mp hrest with hsep | hlater
        · exact .inl hsep
        · obtain hsep | ⟨p', hp', hc⟩ := ih hlater
          · exact .inl hsep
          · exact .inr ⟨p', List.mem_cons_of_mem p hp', hc⟩

theorem mem_joinWith_of_mem {c : Char} {p : List Char} {ps : List (List Char)} (hp : p ∈ ps)
    (hc : c ∈ p) : c ∈ joinWith [sep] ps := by
  induction ps with
  | nil => cases hp
  | cons q ps ih =>
    cases ps with
    | nil =>
      obtain rfl := List.mem_singleton.mp hp
      exact hc
    | cons q' ps =>
      rw [joinWith_cons q (List.cons_ne_nil q' ps)]
      rcases List.mem_cons.mp hp with rfl | hlater
      · exact List.mem_append_left _ hc
      · exact List.mem_append_right _ (List.mem_cons_of_mem sep (ih hlater))

/-! ## Cuts -/

theorem cutFirst?_append (h : sep ∉ a) : cutFirst? sep (a ++ sep :: b) = some (a, b) := by
  induction a with
  | nil => simp [cutFirst?]
  | cons c a ih =>
    obtain ⟨hc, ha⟩ : sep ≠ c ∧ sep ∉ a := by simpa using h
    rw [List.cons_append, cutFirst?, if_neg (Ne.symm hc), ih ha]
    rfl

theorem cutFirst?_eq_some_iff : cutFirst? sep s = some (a, b) ↔ s = a ++ sep :: b ∧ sep ∉ a := by
  refine ⟨fun h => ?_, fun ⟨hs, ha⟩ => hs ▸ cutFirst?_append ha⟩
  induction s generalizing a with
  | nil => cases h
  | cons c s ih =>
    rw [cutFirst?] at h
    split at h
    · cases h
      simp_all
    · obtain ⟨⟨a', b'⟩, hcut, heq⟩ := Option.map_eq_some_iff.mp h
      cases heq
      obtain ⟨rfl, ha⟩ := ih hcut
      exact ⟨rfl, by simp_all [eq_comm]⟩

theorem cutFirst?_eq_none_iff : cutFirst? sep s = none ↔ sep ∉ s := by
  induction s with
  | nil => simp [cutFirst?]
  | cons c s ih =>
    rw [cutFirst?]
    by_cases hc : c = sep
    · simp [hc]
    · simp [hc, ih, Ne.symm hc]

theorem cutLast?_eq_none_iff : cutLast? sep s = none ↔ sep ∉ s := by
  induction s with
  | nil => simp [cutLast?]
  | cons c s ih =>
    rw [cutLast?]
    cases hs : cutLast? sep s with
    | some p =>
      rw [hs] at ih
      simp_all
    | none => simp [ih.mp hs, eq_comm]

theorem cutLast?_append (h : sep ∉ b) : cutLast? sep (a ++ sep :: b) = some (a, b) := by
  induction a with
  | nil =>
    rw [List.nil_append, cutLast?, cutLast?_eq_none_iff.mpr h]
    exact if_pos rfl
  | cons c a ih => rw [List.cons_append, cutLast?, ih]

theorem cutLast?_eq_some_iff : cutLast? sep s = some (a, b) ↔ s = a ++ sep :: b ∧ sep ∉ b := by
  refine ⟨fun h => ?_, fun ⟨hs, hb⟩ => hs ▸ cutLast?_append hb⟩
  induction s generalizing a with
  | nil => cases h
  | cons c s ih =>
    rw [cutLast?] at h
    split at h
    · rename_i p hcut
      cases h
      obtain ⟨rfl, hb⟩ := ih hcut
      exact ⟨rfl, hb⟩
    · rename_i hnone
      split at h
      · cases h
        exact ⟨by simp_all, cutLast?_eq_none_iff.mp hnone⟩
      · cases h

/-! ## Replacements -/

theorem replaceFirst_append {c : Char} (h : c ∉ a) (old new b : List Char) :
    replaceFirst (c :: old) new (a ++ c :: (old ++ b)) = a ++ (new ++ b) := by
  induction a with
  | nil =>
    have hprefix : (c :: old).isPrefixOf (c :: (old ++ b)) = true := by simp
    rw [List.nil_append, replaceFirst, if_pos hprefix]
    simp
  | cons d a ih =>
    obtain ⟨hd, ha⟩ : c ≠ d ∧ c ∉ a := by simpa using h
    have hprefix : ¬ (c :: old).isPrefixOf (d :: (a ++ c :: (old ++ b))) = true := by simp [hd]
    rw [List.cons_append, replaceFirst, if_neg hprefix, ih ha, List.cons_append]

end QueryGateway.Proofs.Text.Split
