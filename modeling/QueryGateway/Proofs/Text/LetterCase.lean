import Mathlib.Data.List.Basic
import QueryGateway.Text.LetterCase

/-!
Texts whose small form is a word of ASCII letters. But for an i and a k, which other signs have for
a small form as well, such a word comes from its own letters only, in either case.
-/

set_option autoImplicit false
set_option relaxedAutoImplicit false

namespace QueryGateway.Proofs.Text.LetterCase

/-!
## ASCII

ASCII characters. What holds of each of the hundred and twenty-eight codes holds of every character
with such a code, so a class of ASCII characters is looked through code by code.
-/

section Ascii

open QueryGateway.Text

variable {c : Char} {s : List Char}

theorem of_ascii {p : Char → Prop} (hp : ∀ n < 128, p (Char.ofNat n)) (h : c.toNat < 128) :
    p c := by
  have hc := hp c.toNat h
  rwa [Char.ofNat_toNat] at hc

/-! ## Classes of ASCII characters -/

theorem toNat_lt_of_isAlphanum (h : c.isAlphanum = true) : c.toNat < 128 := by
  have hbound : ∀ last : Char, c.val ≤ last.val → last.toNat < 128 → c.toNat < 128 :=
    fun last hle hlast => Nat.lt_of_le_of_lt (UInt32.le_iff_toNat_le.mp hle) hlast
  rcases Bool.or_eq_true_iff.mp h with halpha | hdigit
  · rcases Bool.or_eq_true_iff.mp halpha with hupper | hlower
    · exact hbound 'Z' (of_decide_eq_true hupper).2 (by decide)
    · exact hbound 'z' (of_decide_eq_true (Bool.and_eq_true_iff.mp hlower).2) (by decide)
  · exact hbound '9' (of_decide_eq_true (Bool.and_eq_true_iff.mp hdigit).2) (by decide)

theorem toNat_lt_of_toLower (h : c.toLower.toNat < 128) : c.toNat < 128 := by
  unfold Char.toLower at h
  split at h
  · rename_i hcapital
    have hle : c.toNat ≤ 90 := UInt32.le_iff_toNat_le.mp hcapital.2
    omega
  · exact h

/-! ## Letter case -/

theorem lower_of_ascii (h : ∀ c ∈ s, c.toNat < 128) : LetterCase.lower s = s.map Char.toLower := by
  have hafter : ∀ before, LetterCase.lowerAfter before s = s.map Char.toLower := by
    induction s with
    | nil =>
      intro before
      rfl
    | cons c s ih =>
      intro before
      obtain ⟨hc, hs⟩ := List.forall_mem_cons.mp h
      have hsigma : c ≠ LetterCase.sigma := by
        rintro rfl
        exact absurd hc (by decide)
      rw [LetterCase.lowerAfter, ih hs]
      simp [hsigma, LetterCase.lowerOf, hc]
  exact hafter []

end Ascii

open QueryGateway.Text
open QueryGateway.Text.LetterCase

theorem toNat_ofNat {n : Nat} (h : (Char.ofNat n).toNat ≠ 0) : (Char.ofNat n).toNat = n := by
  by_cases hn : n.isValidChar
  · rw [Char.ofNat, dif_pos hn]
    rfl
  · rw [Char.ofNat, dif_neg hn] at h
    exact absurd rfl h

/-- Small ASCII letters that are the small form of their own capitals only. -/
def IsOwn (d : Char) : Prop := 97 ≤ d.toNat ∧ d.toNat ≤ 122 ∧ d ≠ 'i' ∧ d ≠ 'k'

instance (d : Char) : Decidable (IsOwn d) := inferInstanceAs (Decidable (_ ∧ _))

private theorem small_of_mem_capitalRuns : ∀ r ∈ capitalRuns,
    128 ≤ (r.1 : Int) + r.2.2.2 ∨ (r.1 = r.2.1 ∧ (r.1 : Int) + r.2.2.2 = 107) := by
  decide +kernel

private theorem toNat_lt_of_mem_lowerOf {c d : Char} (hd : d ∈ lowerOf c) (h : IsOwn d) :
    c.toNat < 128 := by
  obtain ⟨hlow, hhigh, hi, hk⟩ := h
  by_contra hc
  rw [lowerOf, if_neg hc] at hd
  split at hd
  · have hdot : ¬ (Char.ofNat 0x307).toNat ≤ 122 := by decide
    simp only [List.mem_cons, List.not_mem_nil, or_false] at hd
    rcases hd with rfl | rfl
    · exact hi rfl
    · exact hdot hhigh
  · split at hd
    · rename_i r hfind
      obtain rfl := List.mem_singleton.mp hd
      have hcode := toNat_ofNat (Nat.ne_of_gt (Nat.lt_of_lt_of_le (by decide) hlow))
      have hwithin := List.find?_some hfind
      simp only [Bool.and_eq_true, decide_eq_true_eq] at hwithin
      rcases small_of_mem_capitalRuns r (List.mem_of_find?_eq_some hfind) with
        hsmall | ⟨heq, hsmall⟩
      · omega
      · refine hk (Char.toNat_inj.mp ?_)
        rw [hcode]
        change _ = 107
        omega
    · rw [List.mem_singleton.mp hd] at hhigh
      omega

private theorem exists_mem_lowerAfter (before s : List Char) :
    ∀ c ∈ s, ∃ d ∈ lowerAfter before s, d ∈ lowerOf c ∨ d = finalSigma := by
  induction s generalizing before with
  | nil => nofun
  | cons c s ih =>
    refine List.forall_mem_cons.mpr ⟨?_, fun e he => ?_⟩
    · rw [lowerAfter]
      split
      · exact ⟨finalSigma, List.mem_append_left _ (List.mem_singleton_self _), .inr rfl⟩
      · have hne : lowerOf c ≠ [] := by
          unfold lowerOf
          split_ifs
          · simp
          · simp
          · split <;> simp
        obtain ⟨d, hd⟩ := List.exists_mem_of_ne_nil _ hne
        exact ⟨d, List.mem_append_left _ hd, .inl hd⟩
    · obtain ⟨d, hd, hfrom⟩ := ih (c :: before) e he
      exact ⟨d, by rw [lowerAfter]; exact List.mem_append_right _ hd, hfrom⟩

theorem toLower_mem_of_lower {s : List Char} (h : ∀ d ∈ lower s, IsOwn d) :
    ∀ c ∈ s, c.toNat < 128 ∧ c.toLower ∈ lower s := by
  intro c hc
  obtain ⟨d, hd, hfrom⟩ := exists_mem_lowerAfter [] s c hc
  have hown := h d hd
  rcases hfrom with hlower | rfl
  · have hascii := toNat_lt_of_mem_lowerOf hlower hown
    rw [lowerOf, if_pos hascii] at hlower
    exact ⟨hascii, List.mem_singleton.mp hlower ▸ hd⟩
  · exact absurd hown (by decide)

end QueryGateway.Proofs.Text.LetterCase
