import QueryGateway.Text.Octets

/-!
UTF-8 read back. The bytes of a character are scanned as that character, so a text is decoded from
the bytes that it is written as.
-/

set_option autoImplicit false
set_option relaxedAutoImplicit false

namespace QueryGateway.Proofs.Text.Utf8

open QueryGateway.Text.Utf8

variable {c : Char} {n : Nat} {g : Begun} {r : List UInt8}

theorem toNat_ofNat (h : n < 256) : (UInt8.ofNat n).toNat = n :=
  UInt8.toNat_ofNat_of_lt h

private theorem code_bounds (c : Char) : c.toNat < 0xd800 ∨ 0xdfff < c.toNat ∧ c.toNat < 0x110000 :=
  c.valid

/-! ## Bytes of one character -/

theorem encodeChar_one (h : c.toNat < 0x80) : encodeChar c = [UInt8.ofNat c.toNat] := by
  rw [encodeChar, if_pos h]

private theorem encodeChar_two (h : 0x80 ≤ c.toNat) (h' : c.toNat < 0x800) :
    encodeChar c = [UInt8.ofNat (0xc0 + c.toNat / 64), UInt8.ofNat (0x80 + c.toNat % 64)] := by
  rw [encodeChar, if_neg (by omega), if_pos h']
  simp

private theorem encodeChar_three (h : 0x800 ≤ c.toNat) (h' : c.toNat < 0x10000) :
    encodeChar c = [UInt8.ofNat (0xe0 + c.toNat / 4096), UInt8.ofNat (0x80 + c.toNat / 64 % 64),
      UInt8.ofNat (0x80 + c.toNat % 64)] := by
  rw [encodeChar, if_neg (by omega), if_neg (by omega), if_pos h']
  simp

private theorem encodeChar_four (h : 0x10000 ≤ c.toNat) :
    encodeChar c = [UInt8.ofNat (0xf0 + c.toNat / 262144),
      UInt8.ofNat (0x80 + c.toNat / 4096 % 64), UInt8.ofNat (0x80 + c.toNat / 64 % 64),
      UInt8.ofNat (0x80 + c.toNat % 64)] := by
  rw [encodeChar, if_neg (by omega), if_neg (by omega), if_neg (by omega)]
  simp

/-! ## Bytes one at a time -/

private theorem scan_more (hn : n < 64) (hlow : g.low ≤ 0x80 + n) (hhigh : 0x80 + n ≤ g.high)
    (howed : g.owed ≠ 1) :
    scan (some g) (UInt8.ofNat (0x80 + n) :: r) =
      scan (some ⟨g.owed - 1, 0x80, 0xbf, g.bits * 64 + n, UInt8.ofNat (0x80 + n) :: g.bytes⟩)
        r := by
  have hbyte : (UInt8.ofNat (0x80 + n)).toNat = 0x80 + n := toNat_ofNat (by omega)
  rw [scan, hbyte]
  simp [hlow, hhigh, howed]

private theorem scan_last (hn : n < 64) (hlow : g.low ≤ 0x80 + n) (hhigh : 0x80 + n ≤ g.high)
    (howed : g.owed = 1) :
    scan (some g) (UInt8.ofNat (0x80 + n) :: r) =
      .character (Char.ofNat (g.bits * 64 + n)) :: scan none r := by
  have hbyte : (UInt8.ofNat (0x80 + n)).toNat = 0x80 + n := toNat_ofNat (by omega)
  rw [scan, hbyte]
  simp [hlow, hhigh, howed]

private theorem scan_begun {b : UInt8} (h : lead b = .begun g) :
    scan none (b :: r) = scan (some g) r := by
  rw [scan, h]

private theorem lead_two (h : 2 ≤ n) (h' : n < 32) :
    lead (UInt8.ofNat (0xc0 + n)) = .begun ⟨1, 0x80, 0xbf, n, [UInt8.ofNat (0xc0 + n)]⟩ := by
  have hbyte : (UInt8.ofNat (0xc0 + n)).toNat = 0xc0 + n := toNat_ofNat (by omega)
  rw [lead, hbyte, if_neg (by omega), if_neg (by omega), if_pos (by omega), Nat.add_sub_cancel_left]

private theorem lead_three (h : n < 16) :
    lead (UInt8.ofNat (0xe0 + n)) =
      .begun ⟨2, if n = 0 then 0xa0 else 0x80, if n = 13 then 0x9f else 0xbf, n,
        [UInt8.ofNat (0xe0 + n)]⟩ := by
  have hbyte : (UInt8.ofNat (0xe0 + n)).toNat = 0xe0 + n := toNat_ofNat (by omega)
  have hfirst : (0xe0 + n = 0xe0) = (n = 0) := by simp
  have hlast : (0xe0 + n = 0xed) = (n = 13) := propext (by omega)
  rw [lead, hbyte, if_neg (by omega), if_neg (by omega), if_neg (by omega), if_pos (by omega),
    Nat.add_sub_cancel_left]
  simp only [hfirst, hlast]

private theorem lead_four (h : n < 5) :
    lead (UInt8.ofNat (0xf0 + n)) =
      .begun ⟨3, if n = 0 then 0x90 else 0x80, if n = 4 then 0x8f else 0xbf, n,
        [UInt8.ofNat (0xf0 + n)]⟩ := by
  have hbyte : (UInt8.ofNat (0xf0 + n)).toNat = 0xf0 + n := toNat_ofNat (by omega)
  have hfirst : (0xf0 + n = 0xf0) = (n = 0) := by simp
  have hlast : (0xf0 + n = 0xf4) = (n = 4) := propext (by omega)
  rw [lead, hbyte, if_neg (by omega), if_neg (by omega), if_neg (by omega), if_neg (by omega),
    if_pos (by omega), Nat.add_sub_cancel_left]
  simp only [hfirst, hlast]

/-! ## Texts -/

private theorem scan_encodeChar (c : Char) (r : List UInt8) :
    scan none (encodeChar c ++ r) = .character c :: scan none r := by
  have hcode := code_bounds c
  have hself : ∀ m, m = c.toNat → Char.ofNat m = c := by
    rintro m rfl
    exact Char.ofNat_toNat c
  by_cases hone : c.toNat < 0x80
  · have hbyte : (UInt8.ofNat c.toNat).toNat = c.toNat := toNat_ofNat (by omega)
    rw [encodeChar_one hone, List.singleton_append, scan, lead, hbyte, if_pos hone]
    dsimp only
    rw [hself _ rfl]
  by_cases htwo : c.toNat < 0x800
  · rw [encodeChar_two (by omega) htwo, List.cons_append, List.singleton_append,
      scan_begun (lead_two (by omega) (by omega)),
      scan_last (Nat.mod_lt _ (by omega)) (by simp) (by simp; omega) rfl]
    rw [hself _ (by simp; omega)]
  by_cases hthree : c.toNat < 0x10000
  · -- The second byte keeps clear of longer forms of smaller codes and of the codes for pairs.
    have hlow : (if c.toNat / 4096 = 0 then 0xa0 else 0x80) ≤ 0x80 + c.toNat / 64 % 64 := by
      split <;> omega
    have hhigh : 0x80 + c.toNat / 64 % 64 ≤ if c.toNat / 4096 = 13 then 0x9f else 0xbf := by
      split <;> omega
    rw [encodeChar_three (by omega) hthree]
    simp only [List.cons_append, List.nil_append]
    rw [scan_begun (lead_three (by omega)),
      scan_more (Nat.mod_lt _ (by omega)) hlow hhigh (by simp),
      scan_last (Nat.mod_lt _ (by omega)) (by simp) (by simp; omega) rfl]
    rw [hself _ (by simp; omega)]
  · have hlow : (if c.toNat / 262144 = 0 then 0x90 else 0x80) ≤ 0x80 + c.toNat / 4096 % 64 := by
      split <;> omega
    have hhigh : 0x80 + c.toNat / 4096 % 64 ≤ if c.toNat / 262144 = 4 then 0x8f else 0xbf := by
      split <;> omega
    rw [encodeChar_four (by omega)]
    simp only [List.cons_append, List.nil_append]
    rw [scan_begun (lead_four (by omega)),
      scan_more (Nat.mod_lt _ (by omega)) hlow hhigh (by simp),
      scan_more (Nat.mod_lt _ (by omega)) (by simp) (by simp; omega) (by simp),
      scan_last (Nat.mod_lt _ (by omega)) (by simp) (by simp; omega) rfl]
    rw [hself _ (by simp; omega)]

private theorem scan_encode (s : List Char) : scan none (encode s) = s.map .character := by
  induction s with
  | nil => rfl
  | cons c s ih =>
    have hrest : scan none (s.flatMap encodeChar) = s.map .character := ih
    rw [encode, List.flatMap_cons, scan_encodeChar, hrest, List.map_cons]

theorem decodeLossy_encode (s : List Char) : decodeLossy (encode s) = s := by
  rw [decodeLossy, scan_encode, List.map_map]
  exact List.map_id s

end QueryGateway.Proofs.Text.Utf8
