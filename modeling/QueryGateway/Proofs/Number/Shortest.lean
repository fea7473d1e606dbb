import QueryGateway.Number.Numeral
import QueryGateway.Proofs.Value.Grammar

/-!
Shortest texts of floating-point numbers are numbers of JSON. Where their digits stand for a whole
number with zeros behind it, the first digit is not a zero itself: the search for digits starts at
the leading one.
-/

set_option autoImplicit false
set_option relaxedAutoImplicit false

namespace QueryGateway.Proofs.Number.Shortest

open QueryGateway.Number
open QueryGateway.Number.Shortest
open QueryGateway.Proofs.Number.Numeral
open QueryGateway.Proofs.Value.Grammar

-- Powers are those of the core library, whatever else is in scope.
attribute [local instance (high)] instPowNat

/-! ## Digits and a point -/

/-- Digits that do not begin with a zero, unless all of them stand behind the point. -/
def Leads (p : Nat × Int) : Prop := p.1 ≠ 0 ∨ p.2 < 0

/-- A number of JSON without a sign. -/
def IsUnsigned (s : List Char) : Prop :=
  ∃ whole fraction exponent, IsWhole whole ∧ IsFraction fraction ∧ IsExponent exponent ∧
    s = whole ++ fraction ++ exponent

private theorem isWhole_of_isDigit {c : Char} (h : c.isDigit = true) : IsWhole [c] := by
  by_cases hc : c = '0'
  · rw [hc]
    exact .zero
  · exact .digits h hc (List.forall_mem_nil _)

private theorem isExponent_of_int (ex : Int) :
    IsExponent ('e' :: (if ex < 0 then '-' else '+') :: Numeral.padded 2 ex.natAbs) := by
  have hdigits : AreDigits (Numeral.padded 2 ex.natAbs) := isDigit_padded 2 _
  have hne := padded_ne_nil 2 ex.natAbs
  split
  · change IsExponent ('e' :: ['-'] ++ Numeral.padded 2 ex.natAbs)
    exact .some (by decide) (by decide) hne hdigits
  · change IsExponent ('e' :: ['+'] ++ Numeral.padded 2 ex.natAbs)
    exact .some (by decide) (by decide) hne hdigits

private theorem isUnsigned_below {ds : List Char} (hall : AreDigits ds) (hne : ds ≠ [])
    (zeros : Nat) :
    IsUnsigned ('0' :: '.' :: List.replicate zeros '0' ++ ds) := by
  have hback : AreDigits (List.replicate zeros '0' ++ ds) :=
    List.forall_mem_append.mpr ⟨isDigit_zeros _, hall⟩
  have hnonempty : List.replicate zeros '0' ++ ds ≠ [] :=
    List.append_ne_nil_of_right_ne_nil _ hne
  exact ⟨['0'], _, [], .zero, .some hnonempty hback, .none, by simp⟩

section

variable {c : Char} {s : List Char} (hall : AreDigits (c :: s)) (hc : c ≠ '0')
include hall hc

private theorem isUnsigned_whole (zeros : Nat) :
    IsUnsigned (c :: s ++ List.replicate zeros '0' ++ ['.', '0']) := by
  obtain ⟨hdigit, hrest⟩ := List.forall_mem_cons.mp hall
  have hback : AreDigits (s ++ List.replicate zeros '0') :=
    List.forall_mem_append.mpr ⟨hrest, isDigit_zeros _⟩
  have hpoint : IsFraction ['.', '0'] := .some nofun (List.forall_mem_singleton.mpr rfl)
  exact ⟨_, _, [], .digits hdigit hc hback, hpoint, .none, by simp⟩

private theorem isUnsigned_within {k : Nat} (hk : k < s.length) :
    IsUnsigned ((c :: s).take (k + 1) ++ '.' :: (c :: s).drop (k + 1)) := by
  obtain ⟨hdigit, hrest⟩ := List.forall_mem_cons.mp hall
  have hfront : AreDigits (s.take k) := fun b hb => hrest b (List.mem_of_mem_take hb)
  have hback : AreDigits (s.drop k) := fun b hb => hrest b (List.mem_of_mem_drop hb)
  have hnonempty : s.drop k ≠ [] := fun hnil => by
    have hshort := List.drop_eq_nil_iff.mp hnil
    omega
  exact ⟨_, _, [], .digits hdigit hc hfront, .some hnonempty hback, .none, by simp⟩

end

private theorem isUnsigned_scientific {c : Char} {fraction : List Char} (hdigit : c.isDigit = true)
    (hfraction : IsFraction fraction) (ex : Int) :
    IsUnsigned (c :: fraction ++
      'e' :: (if ex < 0 then '-' else '+') :: Numeral.padded 2 ex.natAbs) :=
  ⟨[c], fraction, _, isWhole_of_isDigit hdigit, hfraction, isExponent_of_int ex, by simp⟩

private theorem isUnsigned_layout {d : Nat} {last : Int} (h : Leads (d, last)) :
    IsUnsigned (layout d last) := by
  have hall : AreDigits (Numeral.digits d) := isDigit_digits d
  have hne := digits_ne_nil d
  have hlength : 0 < (Numeral.digits d).length := List.length_pos_iff.mpr hne
  rw [layout]
  generalize hds : Numeral.digits d = ds at hall hne hlength
  -- In front of the point there is a digit other than zero.
  have hfirst : 0 < last + ds.length → ∃ c s, ds = c :: s ∧ c ≠ '0' := by
    intro hpoint
    rw [← hds]
    refine exists_digits_eq_cons fun hd => ?_
    have hzero : ds = ['0'] := by rw [← hds, hd]; rfl
    rcases h with hd' | hlast
    · exact hd' hd
    · rw [hzero, List.length_singleton] at hpoint
      have hone : last < 0 := hlast
      omega
  simp only
  split
  · split
    · exact isUnsigned_below hall hne _
    · rename_i hpoint
      obtain ⟨c, s, rfl, hc⟩ := hfirst (by omega)
      split
      · exact isUnsigned_whole hall hc _
      · rename_i hwithin
        obtain ⟨k, hk⟩ : ∃ k, (last + ((c :: s).length : Int)).toNat = k + 1 :=
          Nat.exists_eq_succ_of_ne_zero (by omega)
        rw [hk]
        rw [List.length_cons] at hwithin hk
        exact isUnsigned_within hall hc (by omega)
  · cases ds with
    | nil => exact absurd rfl hne
    | cons c s =>
      obtain ⟨hdigit, hrest⟩ := List.forall_mem_cons.mp hall
      cases s with
      | nil => exact isUnsigned_scientific hdigit .none _
      | cons b s =>
        have hfraction : IsFraction ('.' :: b :: s) := .some nofun hrest
        exact isUnsigned_scientific hdigit hfraction _

/-! ## The search for digits -/

private theorem leads_dropZeros (fuel : Nat) {p : Nat × Int} (h : Leads p) :
    Leads (dropZeros fuel p) := by
  induction fuel generalizing p with
  | zero => exact h
  | succ fuel ih =>
    obtain ⟨d, k⟩ := p
    rw [dropZeros]
    split
    · rename_i hzero
      simp only [Bool.and_eq_true, decide_eq_true_eq] at hzero
      refine ih (.inl ?_)
      change d / 10 ≠ 0
      omega
    · exact h

private theorem exponentBelowOne_neg (num den fuel : Nat) {k : Nat} (hk : 1 ≤ k) :
    exponentBelowOne num den fuel k < 0 := by
  induction fuel generalizing k with
  | zero =>
    rw [exponentBelowOne]
    omega
  | succ fuel ih =>
    rw [exponentBelowOne]
    split
    · omega
    · exact ih (by omega)

private theorem le_of_leadingExponent {num den : Nat} (hden : 0 < den)
    (h : 0 ≤ leadingExponent num den) : den * 10 ^ (leadingExponent num den).toNat ≤ num := by
  rw [leadingExponent] at h ⊢
  split at h
  · rename_i hle
    rw [if_pos hle]
    have hpos : 1 ≤ num / den := (Nat.one_le_div_iff hden).mpr hle
    have hpower : 10 ^ ((Numeral.digits (num / den)).length - 1) ≤ num / den := by
      refine Nat.le_of_not_lt fun hlt => ?_
      by_cases hone : (Numeral.digits (num / den)).length - 1 = 0
      · rw [hone] at hlt
        omega
      · have hshort := (Nat.length_toDigits_le_iff (b := 10) (by decide)
          (Nat.pos_of_ne_zero hone)).mpr hlt
        rw [← Numeral.digits] at hshort
        omega
    have hexponent : (((Numeral.digits (num / den)).length : Int) - 1).toNat =
        (Numeral.digits (num / den)).length - 1 := by omega
    rw [hexponent]
    exact Nat.le_trans (Nat.mul_le_mul_left den hpower) (Nat.mul_div_le num den)
  · have hneg := exponentBelowOne_neg num den 400 (Nat.le_refl 1)
    omega

private theorem roundedUp_ne_zero {up : Prop} [Decidable up] {d : Nat} (hd : 0 < d) :
    (if up then d + 1 else d) ≠ 0 := by
  split <;> omega

/-- The search gives digits that lead, since no grid that it tries is coarser than the leading digit
of the value. -/
private theorem leads_search {low mid high : Nat × Nat} {closed : Bool} {lead : Int}
    (hmid : 0 < mid.2)
    (hlead : 0 ≤ lead → mid.2 * 10 ^ lead.toNat ≤ mid.1) (fuel : Nat) {n : Nat} (hn : 1 ≤ n) :
    Leads (search low mid high closed lead fuel n) := by
  have hcoarse : ∀ last : Int, 0 ≤ last → last ≤ lead →
      0 < mid.1 / (mid.2 * 10 ^ last.toNat) := by
    intro last hlast hle
    have hpower : 10 ^ last.toNat ≤ 10 ^ lead.toNat := Nat.pow_le_pow_right (by decide) (by omega)
    refine Nat.div_pos ?_ (Nat.mul_pos hmid (Nat.pow_pos (by decide)))
    exact Nat.le_trans (Nat.mul_le_mul_left mid.2 hpower) (hlead (by omega))
  induction fuel generalizing n with
  | zero =>
    rw [search]
    by_cases hlast : lead - ((n : Int) - 1) < 0
    · exact .inr hlast
    · refine .inl ?_
      have hone := hcoarse 0 (Int.le_refl 0) (by omega)
      rw [Int.toNat_zero, Nat.pow_zero, Nat.mul_one] at hone
      have hgrown : mid.1 / mid.2 ≤ mid.1 * 10 ^ (n - 1) / mid.2 :=
        Nat.div_le_div_right (Nat.le_mul_of_pos_right _ (Nat.pow_pos (by decide)))
      change mid.1 * 10 ^ (n - 1) / mid.2 ≠ 0
      omega
  | succ fuel ih =>
    have hnext := ih (n := n + 1) (by omega)
    rw [search]
    by_cases hlast : lead - ((n : Int) - 1) < 0
    · -- Whatever the grid gives, its digits end behind the point.
      simp only
      split
      · exact .inr hlast
      · exact .inr hlast
      · exact .inr hlast
      · exact hnext
    · have hd := hcoarse (lead - ((n : Int) - 1)) (by omega) (by omega)
      simp only [hlast, if_false]
      split
      · -- Both ends of the grid lie in the interval: the lower end, or the one after it.
        exact .inl (roundedUp_ne_zero hd)
      · exact .inl (Nat.ne_of_gt hd)
      · exact .inl (Nat.succ_ne_zero _)
      · exact hnext

private theorem leads_digitsOf (m : Nat) (e : Int) : Leads (digitsOf m e) := by
  rw [digitsOf]
  have hpower : ∀ k : Nat, 0 < 2 ^ k := fun k => Nat.pow_pos (by decide)
  simp only
  split
  · refine leads_search (hpower _) (fun h => ?_) 17 (Nat.le_refl 1)
    exact le_of_leadingExponent (hpower _) h
  · refine leads_search Nat.one_pos (fun h => ?_) 17 (Nat.le_refl 1)
    exact le_of_leadingExponent Nat.one_pos h

theorem isNumber_text (s : Bool) (m : Nat) (e : Int) :
    IsNumber (Shortest.text (.finite s m e)) := by
  have hbody : IsUnsigned (if m = 0 then "0.0".toList else
      layout (dropZeros 400 (digitsOf m e)).1 (dropZeros 400 (digitsOf m e)).2) := by
    split
    · exact ⟨['0'], ['.', '0'], [], .zero, .some nofun (List.forall_mem_singleton.mpr rfl), .none,
        rfl⟩
    · exact isUnsigned_layout (leads_dropZeros 400 (leads_digitsOf m e))
  obtain ⟨whole, fraction, exponent, hwhole, hfraction, hexponent, heq⟩ := hbody
  rw [Shortest.text]
  simp only [heq]
  split
  · exact .negative hwhole hfraction hexponent
  · exact .unsigned hwhole hfraction hexponent

end QueryGateway.Proofs.Number.Shortest
