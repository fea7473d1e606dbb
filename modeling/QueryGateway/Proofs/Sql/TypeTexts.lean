import QueryGateway.Proofs.Sql.TypeForms

/-!
Column types as texts. A type as text is read as that type, and even without the blanks in front of
its modifiers its text is that of no other type.
-/

set_option autoImplicit false
set_option relaxedAutoImplicit false

namespace QueryGateway.Proofs.Sql.TypeTexts

open QueryGateway.Sql
open QueryGateway.Sql.ColumnType
open QueryGateway.Text
open QueryGateway.Text.Blank (isBlank)
open QueryGateway.Proofs.Sql.Condensed
open QueryGateway.Proofs.Sql.TypeForms
open QueryGateway.Proofs.Text.Blank
open QueryGateway.Proofs.Text.Runs (takeWhile_parted dropWhile_parted)
open QueryGateway.Proofs.Text.Split

variable {base : String} {r s n v : List Char} {size modifiers values : List (List Char)}

/-! ## Types that are read back -/

private theorem listedValue?_quotedValue (h : ∀ c ∈ v, isValueChar c = true) :
    listedValue? (quotedValue v) = some v := by
  have hquoted : quotedValue v = '\'' :: (v ++ ['\'']) := rfl
  have htrim : Blank.trim (quotedValue v) = quotedValue v := by
    refine trim_eq_of_ends ?_ ?_
    · rintro _ ⟨⟩
      rfl
    · rw [quotedValue, List.getLast?_concat]
      rintro _ ⟨⟩
      rfl
  rw [listedValue?, htrim, hquoted]
  simp [List.all_eq_true.mpr h]

private theorem mapM_quotedValue (h : ∀ v ∈ values, ∀ c ∈ v, isValueChar c = true) :
    (values.map quotedValue).mapM listedValue? = some values := by
  induction values with
  | nil => rfl
  | cons v vs ih =>
    obtain ⟨hv, hvs⟩ := List.forall_mem_cons.mp h
    simp [List.mapM_cons, listedValue?_quotedValue hv, ih hvs]

private theorem listedValues?_joinWith (hne : values ≠ [])
    (h : ∀ v ∈ values, ∀ c ∈ v, isValueChar c = true) :
    listedValues? ('(' :: Split.joinWith [','] (values.map quotedValue) ++ [')']) =
      some values := by
  have hcomma : ∀ p ∈ values.map quotedValue, ',' ∉ p := by
    intro p hp
    obtain ⟨v, hv, rfl⟩ := List.mem_map.mp hp
    have hnot : ',' ∉ v := not_mem_of_values (by decide) (h v hv)
    simpa [quotedValue] using hnot
  have hsplit := splitOn_joinWith (by simpa using hne) hcomma
  have hdrop : ∀ r, Blank.dropBlanks ('(' :: r) = '(' :: r := fun r => rfl
  rw [List.cons_append, listedValues?, hdrop]
  simp only [List.getLast?_concat, List.dropLast_concat, hsplit, mapM_quotedValue h]
  rfl

private theorem choice?_chars {keyword : List Char} (h : Formed (.choice keyword values)) :
    choice? (chars (.choice keyword values)) = some (.choice keyword values) := by
  cases h with
  | choice hkeyword hne hvalues =>
    have hlist := listedValues?_joinWith hne hvalues
    have hspelled := keyword_of_spelled hkeyword
    have htrim : Blank.trim (chars (.choice keyword values)) = chars (.choice keyword values) := by
      refine trim_eq_of_ends ?_ ?_
      · rcases hspelled with rfl | rfl
        · rintro _ ⟨⟩
          rfl
        · rintro _ ⟨⟩
          rfl
      · rw [chars, List.getLast?_concat]
        rintro _ ⟨⟩
        rfl
    rw [choice?, htrim, chars, List.append_assoc]
    generalize '(' :: Split.joinWith [','] (values.map quotedValue) ++ [')'] = list at hlist ⊢
    rcases hspelled with rfl | rfl
    · have hafter : LetterCase.afterKeyword? "enum" ("ENUM".toList ++ list) = some list := rfl
      simp only [hafter, Option.bind_some, hlist, Option.map_some]
      rfl
    · have hother : LetterCase.afterKeyword? "enum" ("SET".toList ++ list) = none := rfl
      have hafter : LetterCase.afterKeyword? "set" ("SET".toList ++ list) = some list := rfl
      simp only [hother, hafter, Option.bind_none, Option.bind_some, hlist, Option.map_some]
      rfl

private theorem sizeNumber?_self (hne : n ≠ []) (h : ∀ c ∈ n, Digit.isDecimal c = true) :
    sizeNumber? n = some n := by
  have htrim : Blank.trim n = n := trim_eq_self fun c hc => isBlank_of_decimal (h c hc)
  simp only [sizeNumber?, htrim]
  simp [hne, List.all_eq_true.mpr h]

private theorem sizeNumbers?_joinWith (hne : size ≠ [])
    (h : ∀ n ∈ size, n ≠ [] ∧ ∀ c ∈ n, Digit.isDecimal c = true) (hlength : size.length ≤ 2) :
    sizeNumbers? (Split.joinWith [','] size) = some size := by
  have hcomma : ∀ n ∈ size, ',' ∉ n := fun n hn hmem => absurd ((h n hn).2 _ hmem) (by decide)
  rw [sizeNumbers?, splitOn_joinWith hne hcomma]
  cases size with
  | nil => exact absurd rfl hne
  | cons n rest =>
    obtain ⟨⟨hn, hndecimal⟩, hrest⟩ := List.forall_mem_cons.mp h
    cases rest with
    | nil => simp [sizeNumber?_self hn hndecimal]
    | cons m rest =>
      obtain ⟨hm, hmdecimal⟩ := hrest m List.mem_cons_self
      obtain rfl : rest = [] := List.eq_nil_of_length_eq_zero (by simpa using hlength)
      simp [sizeNumber?_self hn hndecimal, sizeNumber?_self hm hmdecimal]

private theorem size?_append (h : ∀ n ∈ size, n ≠ [] ∧ ∀ c ∈ n, Digit.isDecimal c = true)
    (hlength : size.length ≤ 2) (hrest : ∀ c ∈ (Blank.dropBlanks r).head?, c ≠ '(') :
    size? (sizeChars size ++ r) = some (size, r) := by
  by_cases hne : size = []
  · subst hne
    rw [sizeChars, List.isEmpty_nil, if_pos rfl, List.nil_append, size?]
    split
    · rename_i inner hdrop
      exact absurd rfl (hrest '(' (by rw [hdrop]; rfl))
    · rfl
  · have hclose : ')' ∉ Split.joinWith [','] size := by
      intro hmem
      obtain heq | ⟨n, hn, hmem⟩ := mem_joinWith hmem
      · exact absurd heq (by decide)
      · exact absurd ((h n hn).2 _ hmem) (by decide)
    have hparts : sizeChars size ++ r = '(' :: (Split.joinWith [','] size ++ ')' :: r) := by
      rw [sizeChars, if_neg (by simpa using hne)]
      simp
    have hdrop : ∀ r, Blank.dropBlanks ('(' :: r) = '(' :: r := fun r => rfl
    rw [hparts, size?, hdrop]
    simp only [cutFirst?_append hclose, sizeNumbers?_joinWith hne h hlength, Option.bind_some,
      Option.map_some]

private theorem modifiers?_spaced (h : ∀ m ∈ modifiers, IsModifier m) :
    modifiers? (modifiers.flatMap fun m => ' ' :: m) = some modifiers := by
  have hwords := words_spaced fun m hm =>
    ⟨(h m hm).ne_nil, fun c hc => isBlank_of_letter ((h m hm).letters c hc)⟩
  have hknown := List.all_eq_true.mpr fun m hm => (h m hm).known
  have hupper : modifiers.map LetterCase.upper = modifiers :=
    (List.map_congr_left fun m hm => (h m hm).capital).trans (List.map_id' modifiers)
  simp only [modifiers?, hwords, hknown, hupper, Bool.and_true]
  cases modifiers <;> rfl

private theorem head?_dropBlanks_spaced (h : ∀ m ∈ modifiers, IsModifier m) :
    ∀ c ∈ (Blank.dropBlanks (modifiers.flatMap fun m => ' ' :: m)).head?, c ≠ '(' := by
  cases modifiers with
  | nil => nofun
  | cons m ms =>
    obtain ⟨w, rfl | rfl⟩ := (h m List.mem_cons_self).eq_cons
    · rintro _ ⟨⟩
      decide
    · rintro _ ⟨⟩
      decide

private theorem isBaseLetter_behind (size modifiers : List (List Char)) :
    ∀ c ∈ (sizeChars size ++ modifiers.flatMap fun m => ' ' :: m).head?,
      isBaseLetter c = false := by
  cases size with
  | cons n ns =>
    rintro _ ⟨⟩
    rfl
  | nil =>
    cases modifiers with
    | nil => nofun
    | cons m ms =>
      rintro _ ⟨⟩
      rfl

private theorem dropBlanks_letters {w : List Char} (hne : w ≠ [])
    (hw : ∀ c ∈ w, isBaseLetter c = true) (r : List Char) :
    Blank.dropBlanks (w ++ r) = w ++ r := by
  have hnone : ∀ c ∈ ([] : List Char), isBlank c = true := nofun
  have hvisible : ∀ c ∈ (w ++ r).head?, isBlank c = false := by
    intro c hc
    rw [List.head?_append_of_ne_nil _ hne] at hc
    exact isBlank_of_letter (hw c (List.mem_of_head? hc))
  exact dropBlanks_eq hnone hvisible

private theorem plain?_chars (h : Formed (.plain base size modifiers)) :
    plain? (chars (.plain base size modifiers)) = some (.plain base size modifiers) := by
  cases h with
  | plain hbase hsize hlength hmodifiers =>
    have hmodifiers := fun m hm => isModifier_of_spelled (hmodifiers m hm)
    have hbases : ∀ base ∈ plainBases,
        base.toList ≠ [] ∧ LetterCase.upper base.toList = base.toList := by decide
    obtain ⟨hne, hupper⟩ := hbases base hbase
    have hletters := letters_of_base hbase
    have hbehind := isBaseLetter_behind size modifiers
    have hsizes := size?_append hsize hlength (head?_dropBlanks_spaced hmodifiers)
    have hchars : chars (.plain base size modifiers) =
        base.toList ++ (sizeChars size ++ modifiers.flatMap fun m => ' ' :: m) := by
      rw [chars, List.append_assoc]
      rfl
    simp only [plain?, hchars, dropBlanks_letters hne hletters, takeWhile_parted hletters hbehind,
      dropWhile_parted hletters hbehind, hupper, String.ofList_toList, List.contains_iff_mem,
      hbase, if_true, hsizes, modifiers?_spaced hmodifiers, Option.bind_some, Option.map_some]

private theorem choice?_eq_none (h : '\'' ∉ s) : choice? s = none := by
  cases hchoice : choice? s with
  | none => rfl
  | some t =>
    obtain ⟨_, hdense, hquote⟩ := of_choice? hchoice
    rw [← hdense, condensed_eq_condense h, quote_mem_condense_iff] at hquote
    exact absurd hquote h

theorem ofChars?_chars {t : ColumnType} (h : Formed t) : ofChars? t.chars = some t := by
  cases t with
  | choice keyword values => rw [ofChars?, choice?_chars h]
  | plain base size modifiers =>
    -- reading tries a choice first
    have hquote : '\'' ∉ chars (.plain base size modifiers) := by
      rw [mem_chars_iff (by decide)]
      exact quote_not_mem_dense h
    rw [ofChars?, choice?_eq_none hquote]
    exact plain?_chars h

/-! ## Types from their dense form -/

/-- What may follow a base type without a blank in between. -/
def Follows (r : List Char) : Prop := ∀ c ∈ r.head?, c = '(' ∨ c = 'U' ∨ c = 'Z'

private theorem head?_flatten (h : ∀ m ∈ modifiers, IsModifier m) :
    ∀ c ∈ modifiers.flatten.head?, c = 'U' ∨ c = 'Z' := by
  cases modifiers with
  | nil => nofun
  | cons m ms =>
    obtain ⟨w, rfl | rfl⟩ := (h m List.mem_cons_self).eq_cons
    · rintro _ ⟨⟩
      exact .inl rfl
    · rintro _ ⟨⟩
      exact .inr rfl

private theorem follows_dense (h : ∀ m ∈ modifiers, IsModifier m) :
    Follows (sizeChars size ++ modifiers.flatten) := by
  cases size with
  | nil => exact fun c hc => .inr (head?_flatten h c hc)
  | cons n ns =>
    rintro _ ⟨⟩
    exact .inl rfl

private theorem eq_nil_of_longer_base {base base' : String} {x r : List Char}
    (hbase : base ∈ plainBases)
    (hbase' : base' ∈ plainBases) (h : base'.toList = base.toList ++ x) (hx : Follows (x ++ r)) :
    x = [] := by
  have hbases : ∀ base ∈ plainBases, ∀ base' ∈ plainBases, base.toList <+: base'.toList →
      (base'.toList.drop base.toList.length).head? ∉ [some '(', some 'U', some 'Z'] := by
    decide +kernel
  have hnot := hbases base hbase base' hbase' ⟨x, h.symm⟩
  rw [h, List.drop_left] at hnot
  cases x with
  | nil => rfl
  | cons c x =>
    have hfollows : c = '(' ∨ c = 'U' ∨ c = 'Z' := hx c rfl
    simp [hfollows] at hnot

private theorem base_injective {base base' : String} {r r' : List Char} (hbase : base ∈ plainBases)
    (hbase' : base' ∈ plainBases) (hr : Follows r) (hr' : Follows r')
    (h : base.toList ++ r = base'.toList ++ r') : base = base' ∧ r = r' := by
  rcases List.append_eq_append_iff.mp h with ⟨x, hlonger, hrest⟩ | ⟨x, hlonger, hrest⟩
  · obtain rfl := eq_nil_of_longer_base hbase hbase' hlonger (hrest ▸ hr)
    rw [List.append_nil] at hlonger
    exact ⟨String.toList_injective hlonger.symm, hrest⟩
  · obtain rfl := eq_nil_of_longer_base hbase' hbase hlonger (hrest ▸ hr')
    rw [List.append_nil] at hlonger
    exact ⟨String.toList_injective hlonger, hrest.symm⟩

private theorem size?_dense (hsize : ∀ n ∈ size, n ≠ [] ∧ ∀ c ∈ n, Digit.isDecimal c = true)
    (hlength : size.length ≤ 2) (hmodifiers : ∀ m ∈ modifiers, IsModifier m) :
    size? (sizeChars size ++ modifiers.flatten) = some (size, modifiers.flatten) := by
  refine size?_append hsize hlength ?_
  have hfirst := head?_flatten hmodifiers
  have hdrop : Blank.dropBlanks modifiers.flatten = modifiers.flatten := by
    refine dropBlanks_eq (a := []) nofun fun c hc => ?_
    rcases hfirst c hc with rfl | rfl
    · rfl
    · rfl
  rw [hdrop]
  rintro c hc rfl
  exact absurd (hfirst '(' hc) (by decide)

private theorem modifiers_injective {modifiers modifiers' : List (List Char)}
    (h : ∀ m ∈ modifiers, IsModifier m) (h' : ∀ m ∈ modifiers', IsModifier m)
    (heq : modifiers.flatten = modifiers'.flatten) : modifiers = modifiers' := by
  induction modifiers generalizing modifiers' with
  | nil =>
    cases modifiers' with
    | nil => rfl
    | cons m' ms' =>
      have hnil := List.append_eq_nil_iff.mp heq.symm
      exact absurd hnil.1 (h' m' List.mem_cons_self).ne_nil
  | cons m ms ih =>
    obtain ⟨hm, hms⟩ := List.forall_mem_cons.mp h
    cases modifiers' with
    | nil =>
      have hnil := List.append_eq_nil_iff.mp heq
      exact absurd hnil.1 hm.ne_nil
    | cons m' ms' =>
      obtain ⟨hm', hms'⟩ := List.forall_mem_cons.mp h'
      obtain ⟨hfirst, hrest⟩ := List.append_inj heq (hm.length.trans hm'.length.symm)
      rw [hfirst, ih hms hms' hrest]

theorem dense_injective {t t' : ColumnType} (h : Formed t) (h' : Formed t')
    (heq : dense t = dense t') : t = t' := by
  cases h with
  | @plain base size modifiers hbase hsize hlength hmodifiers =>
    cases h' with
    | @plain base' size' modifiers' hbase' hsize' hlength' hmodifiers' =>
      have hms := fun m hm => isModifier_of_spelled (hmodifiers m hm)
      have hms' := fun m hm => isModifier_of_spelled (hmodifiers' m hm)
      obtain ⟨rfl, hrest⟩ :=
        base_injective hbase hbase' (follows_dense hms) (follows_dense hms') heq
      have hread := size?_dense hsize hlength hms
      rw [hrest, size?_dense hsize' hlength' hms'] at hread
      obtain ⟨rfl, hflatten⟩ := Prod.mk.inj (Option.some.inj hread)
      rw [modifiers_injective hms' hms hflatten]
    | choice _ hne' _ =>
      have hquote := quote_not_mem_dense (.plain hbase hsize hlength hmodifiers)
      rw [heq] at hquote
      exact absurd (quote_mem_dense _ hne') hquote
  | @choice keyword values hkeyword hne hvalues =>
    cases h' with
    | plain hbase' hsize' hlength' hmodifiers' =>
      have hquote := quote_not_mem_dense (.plain hbase' hsize' hlength' hmodifiers')
      rw [← heq] at hquote
      exact absurd (quote_mem_dense _ hne) hquote
    | @choice keyword' values' hkeyword' hne' hvalues' =>
      have hread := ofChars?_chars (.choice hkeyword hne hvalues)
      have hread' := ofChars?_chars (.choice hkeyword' hne' hvalues')
      have hchars : chars (.choice keyword values) = chars (.choice keyword' values') := heq
      rw [hchars, hread'] at hread
      exact (Option.some.inj hread).symm

end QueryGateway.Proofs.Sql.TypeTexts
