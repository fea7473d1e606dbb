import QueryGateway.Proofs.Number.Numeral
import QueryGateway.Value.Json

/-!
The grammar of JSON texts: words, numbers, strings, lists and objects, with white space around their
parts. Strings and containers are written as it demands.
-/

set_option autoImplicit false
set_option relaxedAutoImplicit false

namespace QueryGateway.Proofs.Value.Grammar

open QueryGateway.Number
open QueryGateway.Text
open QueryGateway.Value.Json
open QueryGateway.Proofs.Number.Numeral

def IsSpace (s : List Char) : Prop := ∀ c ∈ s, c = ' ' ∨ c = '\t' ∨ c = '\n' ∨ c = '\r'

def AreDigits (s : List Char) : Prop := ∀ c ∈ s, c.isDigit = true

/-! ## Numbers -/

/-- A whole number without a zero in front. -/
inductive IsWhole : List Char → Prop
  | zero : IsWhole ['0']
  | digits {c : Char} {s : List Char} : c.isDigit = true → c ≠ '0' → AreDigits s → IsWhole (c :: s)

inductive IsFraction : List Char → Prop
  | none : IsFraction []
  | some {s : List Char} : s ≠ [] → AreDigits s → IsFraction ('.' :: s)

inductive IsExponent : List Char → Prop
  | none : IsExponent []
  | some {mark : Char} {sign s : List Char} : mark ∈ ['e', 'E'] → sign ∈ [[], ['+'], ['-']] →
      s ≠ [] → AreDigits s → IsExponent (mark :: sign ++ s)

inductive IsNumber : List Char → Prop
  | mk {sign whole fraction exponent : List Char} : sign ∈ [[], ['-']] → IsWhole whole →
      IsFraction fraction → IsExponent exponent → IsNumber (sign ++ whole ++ fraction ++ exponent)

section

variable {whole fraction exponent : List Char}

theorem IsNumber.unsigned (hwhole : IsWhole whole) (hfraction : IsFraction fraction)
    (hexponent : IsExponent exponent) : IsNumber (whole ++ fraction ++ exponent) :=
  .mk (.head _) hwhole hfraction hexponent

theorem IsNumber.negative (hwhole : IsWhole whole) (hfraction : IsFraction fraction)
    (hexponent : IsExponent exponent) : IsNumber ('-' :: (whole ++ fraction ++ exponent)) :=
  .mk (.tail _ (.head _)) hwhole hfraction hexponent

end

/-! ## Strings -/

def IsHex (c : Char) : Prop := c.isDigit = true ∨ ('a' ≤ c ∧ c ≤ 'f') ∨ ('A' ≤ c ∧ c ≤ 'F')

/-- The letters and marks that stand behind a backslash, but for the one of units. -/
def escapes : List Char := ['"', '\\', '/', 'b', 'f', 'n', 'r', 't']

/-- What stands between the quotes of a string. -/
inductive IsBody : List Char → Prop
  | nil : IsBody []
  | plain {c : Char} {s : List Char} : 32 ≤ c.toNat → c ≠ '"' → c ≠ '\\' → IsBody s →
      IsBody (c :: s)
  | escape {c : Char} {s : List Char} : c ∈ escapes → IsBody s → IsBody ('\\' :: c :: s)
  | unit {hex s : List Char} : hex.length = 4 → (∀ c ∈ hex, IsHex c) → IsBody s →
      IsBody ('\\' :: 'u' :: hex ++ s)

inductive IsString : List Char → Prop
  | mk {s : List Char} : IsBody s → IsString ('"' :: s ++ ['"'])

/-! ## Values -/

mutual

inductive IsValue : List Char → Prop
  | word {s : List Char} : s ∈ ["null".toList, "true".toList, "false".toList] → IsValue s
  | number {s : List Char} : IsNumber s → IsValue s
  | string {s : List Char} : IsString s → IsValue s
  | emptyList {w : List Char} : IsSpace w → IsValue ('[' :: w ++ [']'])
  | list {w s w' : List Char} : IsSpace w → IsItems s → IsSpace w' →
      IsValue ('[' :: w ++ s ++ w' ++ [']'])
  | emptyObject {w : List Char} : IsSpace w → IsValue ('\x7b' :: w ++ ['\x7d'])
  | object {w s w' : List Char} : IsSpace w → IsEntries s → IsSpace w' →
      IsValue ('\x7b' :: w ++ s ++ w' ++ ['\x7d'])

/-- One or more values with commas between them. -/
inductive IsItems : List Char → Prop
  | last {s : List Char} : IsValue s → IsItems s
  | cons {s w w' t : List Char} : IsValue s → IsSpace w → IsSpace w' → IsItems t →
      IsItems (s ++ w ++ ',' :: w' ++ t)

/-- One or more names with values, with commas between them. -/
inductive IsEntries : List Char → Prop
  | last {k w w' s : List Char} : IsString k → IsSpace w → IsSpace w' → IsValue s →
      IsEntries (k ++ w ++ ':' :: w' ++ s)
  | cons {k w w' s v v' t : List Char} : IsString k → IsSpace w → IsSpace w' → IsValue s →
      IsSpace v → IsSpace v' → IsEntries t →
      IsEntries (k ++ w ++ ':' :: w' ++ s ++ v ++ ',' :: v' ++ t)

end

/-- A value with white space around it. -/
inductive IsText : List Char → Prop
  | mk {w s w' : List Char} : IsSpace w → IsValue s → IsSpace w' → IsText (w ++ s ++ w')

/-! ## Whole numbers as they are written -/

private theorem isWhole_digits (n : Nat) : IsWhole (Numeral.digits n) := by
  by_cases hn : n = 0
  · rw [hn]
    exact .zero
  · obtain ⟨c, s, hdigits, hc⟩ := exists_digits_eq_cons hn
    have hall : AreDigits (Numeral.digits n) := isDigit_digits n
    rw [hdigits] at hall ⊢
    obtain ⟨hfirst, hrest⟩ := List.forall_mem_cons.mp hall
    exact .digits hfirst hc hrest

theorem isNumber_ofInt (i : Int) : IsNumber (Numeral.ofInt i) := by
  have hwhole := isWhole_digits i.natAbs
  rw [Numeral.ofInt]
  split
  · simpa using IsNumber.negative hwhole .none .none
  · simpa using IsNumber.unsigned hwhole .none .none

/-! ## Strings as they are written -/

private theorem length_fixed (width n : Nat) : (Hexadecimal.fixed width n).length = width := by
  induction width generalizing n with
  | zero => rfl
  | succ width ih => rw [Hexadecimal.fixed, List.length_append, ih, List.length_singleton]

private theorem isHex_fixed (width n : Nat) : ∀ c ∈ Hexadecimal.fixed width n, IsHex c := by
  have hdigit : ∀ m < 16, IsHex (Hexadecimal.digit m) := by
    unfold IsHex
    decide
  induction width generalizing n with
  | zero => exact List.forall_mem_nil _
  | succ width ih =>
    refine List.forall_mem_append.mpr ⟨ih (n / 16), List.forall_mem_singleton.mpr ?_⟩
    exact hdigit (n % 16) (Nat.mod_lt n (by decide))

private theorem isBody_units (n : Nat) {s : List Char} (hs : IsBody s) : IsBody (units n ++ s) := by
  have hunit : ∀ m {t : List Char}, IsBody t →
      IsBody ('\\' :: 'u' :: Hexadecimal.fixed 4 m ++ t) := fun m _ ht =>
    .unit (length_fixed 4 m) (isHex_fixed 4 m) ht
  rw [units]
  split
  · exact hunit n hs
  · rw [List.append_assoc]
    exact hunit _ (hunit _ hs)

private theorem isBody_escapeChar (c : Char) {s : List Char} (hs : IsBody s) :
    IsBody (escapeChar c ++ s) := by
  have hescape : ∀ d ∈ escapes, IsBody (['\\', d] ++ s) := fun d hd => .escape hd hs
  by_cases hquote : c = '"'
  · rw [hquote]
    exact hescape '"' (by decide)
  by_cases hmark : c = '\\'
  · rw [hmark]
    exact hescape '\\' (by decide)
  rw [escapeChar]
  simp only [beq_iff_eq, hquote, hmark, or_self, Bool.or_eq_true, if_false]
  repeat' split
  · exact hescape 'n' (by decide)
  · exact hescape 'r' (by decide)
  · exact hescape 't' (by decide)
  · exact hescape 'b' (by decide)
  · exact hescape 'f' (by decide)
  · rename_i hplain
    simp only [Bool.and_eq_true, decide_eq_true_eq] at hplain
    exact .plain hplain.1 hquote hmark hs
  · exact isBody_units _ hs

theorem isString_string (s : List Char) : IsString (string s) := by
  have hbody : IsBody (s.flatMap escapeChar) := by
    induction s with
    | nil => exact .nil
    | cons c s ih =>
      rw [List.flatMap_cons]
      exact isBody_escapeChar c ih
  exact .mk hbody

/-! ## Containers as they are written -/

theorem isSpace_lineBreak (layout : Layout) : IsSpace layout.lineBreak := by
  cases layout with
  | compact => exact List.forall_mem_nil _
  | indented d =>
    refine List.forall_mem_cons.mpr ⟨.inr (.inr (.inl rfl)), fun c hc => ?_⟩
    exact .inl (List.eq_of_mem_replicate hc)

theorem exists_between (layout : Layout) : ∃ w, layout.between = ',' :: w ∧ IsSpace w := by
  cases layout with
  | compact => exact ⟨[' '], rfl, List.forall_mem_singleton.mpr (.inl rfl)⟩
  | indented d => exact ⟨_, rfl, isSpace_lineBreak (.indented d)⟩

private theorem flatten_intersperse {rule : List Char → Prop} (part : List Char → Prop)
    {layout : Layout} (hlast : ∀ s, part s → rule s)
    (hcons : ∀ s w t, part s → IsSpace w → rule t → rule (s ++ ',' :: w ++ t))
    {parts : List (List Char)} (hne : parts ≠ []) (hparts : ∀ s ∈ parts, part s) :
    rule (parts.intersperse layout.between).flatten := by
  obtain ⟨w, hw, hspace⟩ := exists_between layout
  induction parts with
  | nil => exact absurd rfl hne
  | cons s parts ih =>
    obtain ⟨hs, hrest⟩ := List.forall_mem_cons.mp hparts
    cases parts with
    | nil => simpa using hlast s hs
    | cons t parts =>
      have htail := ih nofun hrest
      have hall := hcons s w _ hs hspace htail
      rw [hw] at hall ⊢
      simpa using hall

theorem isValue_listContainer (layout : Layout) {parts : List (List Char)}
    (h : ∀ s ∈ parts, IsValue s) : IsValue (container layout '[' ']' parts) := by
  cases parts with
  | nil => exact .emptyList (w := []) (List.forall_mem_nil _)
  | cons s parts =>
    have hitems : IsItems ((s :: parts).intersperse layout.inner.between).flatten := by
      refine flatten_intersperse IsValue (fun _ => .last) (fun s w t hs hw ht => ?_) nofun h
      simpa using IsItems.cons hs (w := []) (List.forall_mem_nil _) hw ht
    have hall := IsValue.list (isSpace_lineBreak layout.inner) hitems (isSpace_lineBreak layout)
    simpa [container] using hall

/-- A name with its value. -/
def IsEntry (m : List Char) : Prop :=
  ∃ k s, m = string k ++ ':' :: ' ' :: s ∧ IsValue s

theorem isValue_objectContainer (layout : Layout) {parts : List (List Char)}
    (h : ∀ s ∈ parts, IsEntry s) : IsValue (container layout '\x7b' '\x7d' parts) := by
  have hblank : IsSpace [' '] := List.forall_mem_singleton.mpr (.inl rfl)
  have hnone : IsSpace [] := List.forall_mem_nil _
  cases parts with
  | nil => exact .emptyObject hnone
  | cons s parts =>
    have hentries : IsEntries ((s :: parts).intersperse layout.inner.between).flatten := by
      refine flatten_intersperse IsEntry ?_ ?_ nofun h
      · rintro _ ⟨k, s, rfl, hs⟩
        simpa using IsEntries.last (isString_string k) hnone hblank hs
      · rintro _ w t ⟨k, s, rfl, hs⟩ hw ht
        simpa using IsEntries.cons (isString_string k) hnone hblank hs hnone hw ht
    have hall := IsValue.object (isSpace_lineBreak layout.inner) hentries (isSpace_lineBreak layout)
    simpa [container] using hall

end QueryGateway.Proofs.Value.Grammar
