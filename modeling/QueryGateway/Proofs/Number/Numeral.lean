import QueryGateway.Number.Numeral

/-!
Decimal digits of numbers, and numbers read back from them.
-/

set_option autoImplicit false
set_option relaxedAutoImplicit false

namespace QueryGateway.Proofs.Number.Numeral

open QueryGateway.Number

-- Powers are those of the core library, as in the definitions.
attribute [local instance (high)] instPowNat

theorem digits_ne_nil (n : Nat) : Numeral.digits n ≠ [] := Nat.toDigits_ne_nil

theorem isDigit_digits (n : Nat) : ∀ c ∈ Numeral.digits n, c.isDigit = true :=
  fun _ hc => Nat.isDigit_of_mem_toDigits (by decide) (by decide) hc

theorem isDigit_zeros (n : Nat) : ∀ c ∈ List.replicate n '0', c.isDigit = true := by
  intro c hc
  rw [List.eq_of_mem_replicate hc]
  rfl

theorem padded_ne_nil (width n : Nat) : Numeral.padded width n ≠ [] := by
  intro h
  exact digits_ne_nil n (List.append_eq_nil_iff.mp h).2

theorem isDigit_padded (width n : Nat) : ∀ c ∈ Numeral.padded width n, c.isDigit = true :=
  List.forall_mem_append.mpr ⟨isDigit_zeros _, isDigit_digits n⟩

theorem exists_digits_eq_cons {n : Nat} (hn : n ≠ 0) :
    ∃ c s, Numeral.digits n = c :: s ∧ c ≠ '0' := by
  induction n using Nat.strongRecOn with
  | ind n ih =>
    by_cases hsmall : n < 10
    · refine ⟨n.digitChar, [], Nat.toDigits_of_lt_base hsmall, ?_⟩
      have hdigits : ∀ m < 10, m ≠ 0 → m.digitChar ≠ '0' := by decide
      exact hdigits n hsmall hn
    · have hsplit := Nat.toDigits_of_base_le (b := 10) (by decide) (Nat.le_of_not_lt hsmall)
      obtain ⟨c, s, hfront, hc⟩ := ih (n / 10) (by omega) (by omega)
      rw [Numeral.digits] at hfront
      refine ⟨c, s ++ [(n % 10).digitChar], ?_, hc⟩
      rw [Numeral.digits, hsplit, hfront, List.cons_append]

private theorem valueOf_digits (n : Nat) : Numeral.valueOf (Numeral.digits n) = n := by
  have hread : Nat.ofDigitChars 10 (Numeral.digits n) 0 = n :=
    Nat.ofDigitChars_toDigits (by decide) (by decide)
  have hstep : (fun n (c : Char) => n * 10 + (c.toNat - 48)) =
      fun n (c : Char) => 10 * n + (c.toNat - '0'.toNat) := by
    funext n c
    rw [Nat.mul_comm]
    rfl
  rw [Numeral.valueOf, hstep]
  exact hread

theorem isTooLong_eq_false {i : Int} {n : Nat} (hn : n ≤ Numeral.maxDigits)
    (hi : i.natAbs < 10 ^ n) : Numeral.isTooLong i = false := by
  unfold Numeral.isTooLong
  generalize Numeral.maxDigits = most at hn
  have hle : 10 ^ n ≤ 10 ^ most := Nat.pow_le_pow_right (by decide) hn
  exact decide_eq_false (Nat.not_le.mpr (Nat.lt_of_lt_of_le hi hle))

def leastTooLong : Int := .ofNat (10 ^ Numeral.maxDigits)

theorem isTooLong_leastTooLong : Numeral.isTooLong leastTooLong = true := by
  unfold Numeral.isTooLong leastTooLong
  generalize Numeral.maxDigits = most
  exact decide_eq_true Nat.le.refl

theorem nat?_digits (n : Nat) : Numeral.nat? (Numeral.digits n) = some n := by
  have hall : (Numeral.digits n).all Char.isDigit = true := List.all_eq_true.mpr (isDigit_digits n)
  have hne : (Numeral.digits n).isEmpty = false := by simpa using digits_ne_nil n
  rw [Numeral.nat?, hne, hall, valueOf_digits]
  rfl

end QueryGateway.Proofs.Number.Numeral
