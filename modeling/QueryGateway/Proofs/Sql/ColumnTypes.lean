import QueryGateway.Proofs.Sql.TypeTexts

/-!
Column types in their documented normal form. A type that is accepted comes out as the text that was
given, in capitals and without white space but for the blanks in front of modifiers and for what is
quoted. That text is the documented one where it is ASCII; digits of other scripts, the dotted
capital I and the signs that stand for an i, an s or a k in a caseless match are accepted as well.
-/

set_option autoImplicit false
set_option relaxedAutoImplicit false

namespace QueryGateway.Proofs.Sql.ColumnTypes

open QueryGateway.Sql
open QueryGateway.Sql.ColumnType
open QueryGateway.Text
open QueryGateway.Proofs.Sql.Condensed
open QueryGateway.Proofs.Sql.Spelling
open QueryGateway.Proofs.Sql.TypeForms
open QueryGateway.Proofs.Sql.TypeTexts
open QueryGateway.Proofs.Text.Split (mem_joinWith_of_mem)

/-! ## The documented form -/

/-- A run of the digits from 0 to 9. -/
def IsNumber (n : List Char) : Prop := n ≠ [] ∧ ∀ c ∈ n, c.isDigit = true

inductive SizeForm : List Char → Prop
  | none : SizeForm []
  | one {n : List Char} : IsNumber n → SizeForm ('(' :: n ++ [')'])
  | two {n m : List Char} : IsNumber n → IsNumber m → SizeForm ('(' :: (n ++ ',' :: m) ++ [')'])

inductive ModifiersForm : List Char → Prop
  | none : ModifiersForm []
  | unsigned {r : List Char} : ModifiersForm r → ModifiersForm (" UNSIGNED".toList ++ r)
  | zerofill {r : List Char} : ModifiersForm r → ModifiersForm (" ZEROFILL".toList ++ r)

/-- The ASCII letters and digits and the four signs of a listed value. -/
def isListedChar (c : Char) : Bool :=
  c.isAlphanum || c == '_' || c == ' ' || c == '.' || c == '-'

/-- A column type as text in the documented form. -/
inductive NormalForm : List Char → Prop
  | plain {base : String} {size modifiers : List Char} : base ∈ listedBases → base ≠ "ENUM" →
      base ≠ "SET" → SizeForm size → ModifiersForm modifiers →
      NormalForm (base.toList ++ size ++ modifiers)
  | choice {base : String} {values : List (List Char)} : base = "ENUM" ∨ base = "SET" →
      values ≠ [] → (∀ v ∈ values, ∀ c ∈ v, isListedChar c = true) →
      NormalForm (base.toList ++ '(' :: Split.joinWith [','] (values.map quotedValue) ++ [')'])

variable {s : String} {t : ColumnType} {size modifiers values : List (List Char)}

/-! ## Types of ASCII characters -/

private theorem isAscii_iff {s : List Char} : isAscii s = true ↔ ∀ c ∈ s, c.toNat < 128 := by
  simp [isAscii]

private theorem isDigit_of_isDecimal {c : Char} (hascii : c.toNat < 128)
    (h : Digit.isDecimal c = true) : c.isDigit = true := by
  rw [Digit.isDecimal, Digit.value?, if_pos hascii] at h
  split at h
  · assumption
  · cases h

private theorem isListedChar_of_isValueChar {c : Char} (hascii : c.toNat < 128)
    (h : isValueChar c = true) : isListedChar c = true := by
  have hall : ∀ n < 128, isValueChar (Char.ofNat n) = true →
      isListedChar (Char.ofNat n) = true := by decide
  have hc := hall c.toNat hascii
  rw [Char.ofNat_toNat] at hc
  exact hc h

private theorem sizeForm_of_ascii (h : ∀ n ∈ size, n ≠ [] ∧ ∀ c ∈ n, Digit.isDecimal c = true)
    (hlength : size.length ≤ 2) (hascii : ∀ c ∈ sizeChars size, c.toNat < 128) :
    SizeForm (sizeChars size) := by
  have hnumber : ∀ n ∈ size, IsNumber n := by
    intro n hn
    obtain ⟨hne, hdecimal⟩ := h n hn
    refine ⟨hne, fun c hc => isDigit_of_isDecimal (hascii c ?_) (hdecimal c hc)⟩
    have hmem : c ∈ Split.joinWith [','] size := mem_joinWith_of_mem hn hc
    rw [sizeChars, if_neg (by simpa using List.ne_nil_of_mem hn)]
    exact List.mem_append_left _ (List.mem_cons_of_mem _ hmem)
  cases size with
  | nil => exact .none
  | cons n rest =>
    obtain ⟨hn, hrest⟩ := List.forall_mem_cons.mp hnumber
    cases rest with
    | nil => exact .one hn
    | cons m rest =>
      obtain rfl : rest = [] := List.eq_nil_of_length_eq_zero (by simpa using hlength)
      have hform := SizeForm.two hn (hrest m List.mem_cons_self)
      simpa [sizeChars, Split.joinWith] using hform

private theorem modifiersForm_of_ascii
    (h : ∀ m ∈ modifiers, m ∈ spellings "unsigned" ∨ m ∈ spellings "zerofill")
    (hascii : ∀ m ∈ modifiers, isAscii m = true) :
    ModifiersForm (modifiers.flatMap fun m => ' ' :: m) := by
  have hunsigned : ∀ m ∈ spellings "unsigned", isAscii m = true → m = "UNSIGNED".toList := by decide
  have hzerofill : ∀ m ∈ spellings "zerofill", isAscii m = true → m = "ZEROFILL".toList := by decide
  induction modifiers with
  | nil => exact .none
  | cons m ms ih =>
    obtain ⟨hm, hms⟩ := List.forall_mem_cons.mp h
    obtain ⟨hmascii, hmsascii⟩ := List.forall_mem_cons.mp hascii
    have hrest := ih hms hmsascii
    rw [List.flatMap_cons]
    rcases hm with hm | hm
    · rw [hunsigned m hm hmascii]
      exact .unsigned hrest
    · rw [hzerofill m hm hmascii]
      exact .zerofill hrest

private theorem normalForm_of_ascii (h : Formed t) (hascii : isAscii t.chars = true) :
    NormalForm t.chars := by
  rw [isAscii_iff] at hascii
  cases h with
  | @plain base size modifiers hbase hsize hlength hmodifiers =>
    have hbases : ∀ base ∈ plainBases,
        base ∈ listedBases ∧ base ≠ "ENUM" ∧ base ≠ "SET" := by decide
    obtain ⟨hlisted, henum, hset⟩ := hbases base hbase
    have hchars : chars (.plain base size modifiers) =
        base.toList ++ sizeChars size ++ modifiers.flatMap fun m => ' ' :: m := rfl
    rw [hchars] at hascii ⊢
    refine .plain hlisted henum hset (sizeForm_of_ascii hsize hlength ?_)
      (modifiersForm_of_ascii hmodifiers ?_)
    · exact fun c hc => hascii c (by simp [hc])
    · intro m hm
      refine isAscii_iff.mpr fun c hc => hascii c (List.mem_append_right _ ?_)
      exact List.mem_flatMap.mpr ⟨m, hm, List.mem_cons_of_mem _ hc⟩
  | @choice keyword values hkeyword hne hvalues =>
    have hlisted : ∀ v ∈ values, ∀ c ∈ v, isListedChar c = true := by
      intro v hv c hc
      refine isListedChar_of_isValueChar (hascii c ?_) (hvalues v hv c hc)
      have hquoted : c ∈ quotedValue v := by simp [quotedValue, hc]
      have hmem : c ∈ Split.joinWith [','] (values.map quotedValue) :=
        mem_joinWith_of_mem (List.mem_map_of_mem hv) hquoted
      simp [chars, hmem]
    rcases keyword_of_spelled hkeyword with rfl | rfl
    · exact .choice (.inl rfl) hne hlisted
    · exact .choice (.inr rfl) hne hlisted

private theorem isAscii_chars_iff : isAscii t.chars = true ↔ isAscii (dense t) = true := by
  rw [isAscii_iff, isAscii_iff]
  constructor
  · intro h c hc
    by_cases hblank : c = ' '
    · subst hblank
      decide
    · exact h c ((mem_chars_iff hblank).mpr hc)
  · intro h c hc
    by_cases hblank : c = ' '
    · subst hblank
      decide
    · exact h c ((mem_chars_iff hblank).mp hc)

/-! ## Types that are accepted -/

/-- An accepted type comes out as the text that was given, apart from letter case and from white
space outside quotes, and has the documented form just if that text is ASCII then. -/
theorem normalForm_iff (h : ofValue (.text s) = .ok t) :
    condensed t.chars = condensed s.toList ∧
      ((isAscii t.chars = true ∧ NormalForm t.chars) ↔
        isAscii (condensed s.toList) = true) := by
  obtain ⟨hformed, hdense⟩ := of_ofChars? (ofValue_eq_ok_iff.mp h)
  obtain ⟨_, hself⟩ := of_ofChars? (ofChars?_chars hformed)
  refine ⟨hself.trans hdense.symm, ?_⟩
  rw [hdense, ← isAscii_chars_iff]
  exact ⟨fun hform => hform.1, fun hascii => ⟨hascii, normalForm_of_ascii hformed hascii⟩⟩

/-- White space of several kinds, and a dotless i in the base type and in a modifier. -/
def scattered : String := "\u2003t\u0131nyint ( 4\t)\u00a0uns\u0131gned  zerofill\n"

theorem normalForm_iff_scattered :
    ∃ t, ofValue (.text scattered) = .ok t ∧ t.text = "TINYINT(4) UNSIGNED ZEROFILL" ∧
      isAscii t.chars = true ∧ NormalForm t.chars := by
  have hok : ofValue (.text scattered) =
      .ok (.plain "TINYINT" [['4']] ["UNSIGNED".toList, "ZEROFILL".toList]) := by rfl
  have hascii : isAscii (condensed scattered.toList) = true := by decide
  exact ⟨_, hok, by rfl, (normalForm_iff hok).2.mpr hascii⟩

/-- A dotted capital I passes for the I of a modifier and stays. -/
theorem not_normalForm_dottedI :
    ∃ t, ofValue (.text "int uns\u0130gned") = .ok t ∧ t.text = "INT UNS\u0130GNED" ∧
      ¬ (isAscii t.chars = true ∧ NormalForm t.chars) := by
  have hok : ofValue (.text "int uns\u0130gned") =
      .ok (.plain "INT" [] ["UNS\u0130GNED".toList]) := by rfl
  refine ⟨_, hok, by rfl, fun hform => ?_⟩
  exact absurd hform.1 (by decide)

/-- The text of an accepted type is accepted as that type, and no other text that differs only in
letter case and in white space outside quotes is accepted as another one. -/
theorem ofValue_normalises (h : ofValue (.text s) = .ok t) :
    ofValue (.text t.text) = .ok t ∧
      ∀ s' t', ofValue (.text s') = .ok t' → condensed s'.toList = condensed s.toList →
        t' = t := by
  obtain ⟨hformed, hdense⟩ := of_ofChars? (ofValue_eq_ok_iff.mp h)
  constructor
  · rw [ofValue_eq_ok_iff, ColumnType.text, String.toList_ofList]
    exact ofChars?_chars hformed
  · intro s' t' h' heq
    obtain ⟨hformed', hdense'⟩ := of_ofChars? (ofValue_eq_ok_iff.mp h')
    exact dense_injective hformed' hformed (by rw [← hdense', heq, hdense])

theorem ofValue_normalises_spread :
    ∃ t t', ofValue (.text "enum( 'a' ,\t'b c' )") = .ok t ∧
      ofValue (.text " Enum ('a', 'b c')\n") = .ok t' ∧ t.text = "ENUM('a','b c')" ∧
      ofValue (.text t.text) = .ok t ∧ t' = t := by
  have hok : ofValue (.text "enum( 'a' ,\t'b c' )") =
      .ok (.choice "ENUM".toList [['a'], "b c".toList]) := by rfl
  have hok' : ofValue (.text " Enum ('a', 'b c')\n") =
      .ok (.choice "ENUM".toList [['a'], "b c".toList]) := by rfl
  have heq : condensed " Enum ('a', 'b c')\n".toList = condensed "enum( 'a' ,\t'b c' )".toList := by
    decide
  obtain ⟨hback, hagree⟩ := ofValue_normalises hok
  exact ⟨_, _, hok, hok', by rfl, hback, hagree _ _ hok' heq⟩

end QueryGateway.Proofs.Sql.ColumnTypes
