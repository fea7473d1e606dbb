import QueryGateway.Proofs.Text.LetterCase
import QueryGateway.Proofs.Text.Utf8
import QueryGateway.Text.Octets

/-!
Percent-encoding read back. An encoded text is ASCII, with escapes for the bytes of each character
that is not safe, so decoding it comes down to decoding those bytes.
-/

set_option autoImplicit false
set_option relaxedAutoImplicit false

namespace QueryGateway.Proofs.Text.Percent

open QueryGateway.Text
open QueryGateway.Text.Percent
open QueryGateway.Proofs.Text.Utf8 (decodeLossy_encode encodeChar_one)

variable {safe : Char → Bool} {c : Char} {s : List Char}

/-! ## Escapes -/

private theorem toUpper_digit : ∀ n < 16,
    Hexadecimal.value? (Hexadecimal.digit n).toUpper = some n ∧
      isUnreserved (Hexadecimal.digit n).toUpper = true := by
  decide

private theorem unescape_escape (b : UInt8) (r : List Char) :
    unescape (escape b ++ r) = b :: unescape r := by
  have hb : b.toNat < 256 := b.toNat_lt
  have hhigh := (toUpper_digit (b.toNat / 16) (by omega)).1
  have hlow := (toUpper_digit (b.toNat % 16) (by omega)).1
  have hbyte : b.toNat / 16 * 16 + b.toNat % 16 = b.toNat := by omega
  simp only [escape, List.cons_append, List.nil_append, unescape, hhigh, hlow, hbyte,
    UInt8.ofNat_toNat]

private theorem unescape_flatMap_escape (bytes : List UInt8) (r : List Char) :
    unescape (bytes.flatMap escape ++ r) = bytes ++ unescape r := by
  induction bytes with
  | nil => rfl
  | cons b bytes ih =>
    rw [List.flatMap_cons, List.append_assoc, unescape_escape, ih, List.cons_append]

private theorem unescape_cons (h : c ≠ '%') (r : List Char) :
    unescape (c :: r) = UInt8.ofNat c.toNat :: unescape r := by
  rw [unescape]
  rintro a b r' rfl
  exact absurd rfl h

/-! ## Encoded texts -/

/-- Characters that can be kept: they are ASCII and begin no escape. -/
def CanBeKept (safe : Char → Bool) : Prop := ∀ c, safe c = true → c.toNat < 128 ∧ c ≠ '%'

private theorem unescape_encode (h : CanBeKept safe) (s : List Char) :
    unescape (encode safe s) = Utf8.encode s := by
  induction s with
  | nil => rfl
  | cons c s ih =>
    rw [encode, List.flatMap_cons, Utf8.encode, List.flatMap_cons]
    by_cases hc : safe c = true
    · obtain ⟨hascii, hpercent⟩ := h c hc
      rw [if_pos hc, List.singleton_append, unescape_cons hpercent, encodeChar_one hascii]
      exact congrArg _ ih
    · rw [if_neg hc, unescape_flatMap_escape]
      exact congrArg _ ih

theorem mem_encode (h : c ∈ encode safe s) :
    safe c = true ∨ isUnreserved c = true ∨ c = '%' := by
  obtain ⟨d, _, hd⟩ := List.mem_flatMap.mp h
  split at hd
  · rename_i hsafe
    obtain rfl := List.mem_singleton.mp hd
    exact .inl hsafe
  · obtain ⟨b, _, hb⟩ := List.mem_flatMap.mp hd
    have hlt : b.toNat < 256 := b.toNat_lt
    simp only [escape, List.mem_cons, List.not_mem_nil, or_false] at hb
    rcases hb with rfl | rfl | rfl
    · exact .inr (.inr rfl)
    · exact .inr (.inl (toUpper_digit (b.toNat / 16) (by omega)).2)
    · exact .inr (.inl (toUpper_digit (b.toNat % 16) (by omega)).2)

theorem toNat_lt_of_isUnreserved (h : isUnreserved c = true) : c.toNat < 128 :=
  of_decide_eq_true (Bool.and_eq_true_iff.mp h).1

/-! ## Decoding -/

private theorem decodeFrom_of_ascii (h : ∀ c ∈ s, c.toNat < 128) (before : List Char) :
    decodeFrom before s = Utf8.decodeLossy (unescape (before.reverse ++ s)) := by
  induction s generalizing before with
  | nil => rw [decodeFrom, List.append_nil]
  | cons c s ih =>
    obtain ⟨hc, hs⟩ := List.forall_mem_cons.mp h
    rw [decodeFrom, if_pos hc, ih hs, List.reverse_cons, List.append_assoc, List.singleton_append]

theorem decode_encode (h : CanBeKept safe) (s : List Char) : decode (encode safe s) = s := by
  have hascii : ∀ c ∈ encode safe s, c.toNat < 128 := by
    intro c hc
    rcases mem_encode hc with hsafe | hunreserved | rfl
    · exact (h c hsafe).1
    · exact toNat_lt_of_isUnreserved hunreserved
    · decide
  rw [decode, decodeFrom_of_ascii hascii, List.reverse_nil, List.nil_append, unescape_encode h,
    decodeLossy_encode]

theorem canBeKept_isUnreserved : CanBeKept isUnreserved := by
  intro c hc
  refine ⟨toNat_lt_of_isUnreserved hc, ?_⟩
  rintro rfl
  exact absurd hc (by decide)

end QueryGateway.Proofs.Text.Percent
