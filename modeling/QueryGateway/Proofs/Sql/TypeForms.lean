import QueryGateway.Proofs.Sql.Condensed

/-!
Column types as reading gives them. What a type is read from, without its white space and in
capitals, is the type itself without the blanks in front of its modifiers.
-/

set_option autoImplicit false
set_option relaxedAutoImplicit false

namespace QueryGateway.Proofs.Sql.TypeForms

open QueryGateway.Sql
open QueryGateway.Sql.ColumnType
open QueryGateway.Text
open QueryGateway.Text.Blank (isBlank)
open QueryGateway.Proofs.Sql.Condensed
open QueryGateway.Proofs.Sql.Spelling
open QueryGateway.Proofs.Text.Blank
open QueryGateway.Proofs.Text.Split

/-- A type as reading one gives it. -/
inductive Formed : ColumnType → Prop
  | plain {base : String} {size modifiers : List (List Char)} : base ∈ plainBases →
      (∀ n ∈ size, n ≠ [] ∧ ∀ c ∈ n, Digit.isDecimal c = true) → size.length ≤ 2 →
      (∀ m ∈ modifiers, m ∈ spellings "unsigned" ∨ m ∈ spellings "zerofill") →
      Formed (.plain base size modifiers)
  | choice {base : List Char} {values : List (List Char)} :
      base ∈ spellings "enum" ∨ base ∈ spellings "set" → values ≠ [] →
      (∀ v ∈ values, ∀ c ∈ v, isValueChar c = true) → Formed (.choice base values)

def sizeChars (size : List (List Char)) : List Char :=
  if size.isEmpty then [] else '(' :: Split.joinWith [','] size ++ [')']

def dense : ColumnType → List Char
  | .plain base size modifiers => base.toList ++ (sizeChars size ++ modifiers.flatten)
  | .choice base values => chars (.choice base values)

variable {base : String} {r s n v : List Char} {size modifiers values pieces : List (List Char)}

/-! ## Letters -/

theorem isBlank_of_letter {c : Char} (h : isBaseLetter c = true) : isBlank c = false :=
  isBlank_of_class (p := isBaseLetter) (by decide) h

private theorem quote_not_mem_of_letters (h : ∀ c ∈ s, isBaseLetter c = true) : '\'' ∉ s :=
  fun hmem => absurd (h _ hmem) (by decide)

private theorem condensed_letters (h : ∀ c ∈ s, isBaseLetter c = true) (r : List Char) :
    condensed (s ++ r) = LetterCase.upper s ++ condensed r := by
  rw [condensed_append (quote_not_mem_of_letters h),
    condense_visible fun c hc => isBlank_of_letter (h c hc)]

/-- Keywords of column types are texts of small letters. -/
def isSmall (s : List Char) : Bool := s.all fun c => 'a' ≤ c && c ≤ 'z'

private theorem letters_of_isKeyword {keyword : String} (hsmall : isSmall keyword.toList = true)
    (h : LetterCase.isKeyword keyword s = true) : ∀ c ∈ s, isBaseLetter c = true := by
  intro c hc
  have hletter : LetterCase.fold c ∈ keyword.toList :=
    map_fold_of_isKeyword h ▸ List.mem_map_of_mem hc
  exact List.all_eq_true.mp hsmall _ hletter

theorem letters_of_base (h : base ∈ plainBases) : ∀ c ∈ base.toList, isBaseLetter c = true := by
  have hbases : ∀ base ∈ plainBases, base.toList.all isBaseLetter = true := by decide
  exact List.all_eq_true.mp (hbases base h)

theorem keyword_of_spelled {k : List Char} (h : k ∈ spellings "enum" ∨ k ∈ spellings "set") :
    k = "ENUM".toList ∨ k = "SET".toList := by
  have hboth : ∀ k ∈ spellings "enum" ++ spellings "set",
      k = "ENUM".toList ∨ k = "SET".toList := by decide
  exact hboth k (List.mem_append.mpr h)

/-- What the modifiers have in common. -/
structure IsModifier (m : List Char) : Prop where
  letters : ∀ c ∈ m, isBaseLetter c = true
  capital : LetterCase.upper m = m
  length : m.length = 8
  initial : m.head? = some 'U' ∨ m.head? = some 'Z'
  known : (LetterCase.isKeyword "unsigned" m || LetterCase.isKeyword "zerofill" m) = true

theorem isModifier_of_spelled {m : List Char}
    (h : m ∈ spellings "unsigned" ∨ m ∈ spellings "zerofill") : IsModifier m := by
  have hboth : ∀ m ∈ spellings "unsigned" ++ spellings "zerofill",
      m.all isBaseLetter = true ∧ LetterCase.upper m = m ∧ m.length = 8 ∧
        (m.head? = some 'U' ∨ m.head? = some 'Z') ∧
        (LetterCase.isKeyword "unsigned" m || LetterCase.isKeyword "zerofill" m) = true := by
    decide
  obtain ⟨hletters, hcapital, hlength, hinitial, hknown⟩ := hboth m (List.mem_append.mpr h)
  exact ⟨List.all_eq_true.mp hletters, hcapital, hlength, hinitial, hknown⟩

theorem IsModifier.ne_nil {m : List Char} (h : IsModifier m) : m ≠ [] := by
  rintro rfl
  cases h.length

theorem IsModifier.eq_cons {m : List Char} (h : IsModifier m) :
    ∃ w, m = 'U' :: w ∨ m = 'Z' :: w := by
  obtain ⟨c, w, rfl⟩ := List.exists_cons_of_ne_nil h.ne_nil
  rcases h.initial with hc | hc
  · cases hc
    exact ⟨w, .inl rfl⟩
  · cases hc
    exact ⟨w, .inr rfl⟩

/-! ## Digits -/

theorem isBlank_of_decimal {c : Char} (h : Digit.isDecimal c = true) : isBlank c = false :=
  isBlank_of_class (p := Digit.isDecimal) (by decide) h

private theorem condense_decimals (h : ∀ c ∈ n, Digit.isDecimal c = true) : condense n = n :=
  condense_eq_self fun c hc => ⟨isBlank_of_decimal (h c hc),
    upperOf_eq_self (p := Digit.isDecimal) (by decide) (by decide) (h c hc)⟩

/-! ## Characters of a type -/

theorem mem_chars_iff {t : ColumnType} {c : Char} (hc : c ≠ ' ') : c ∈ chars t ↔ c ∈ dense t := by
  cases t with
  | plain base size modifiers => simp [chars, dense, sizeChars, hc]
  | choice keyword values => exact Iff.rfl

theorem quote_mem_dense (base : List Char) (hne : values ≠ []) :
    '\'' ∈ dense (.choice base values) := by
  obtain ⟨v, vs, rfl⟩ := List.exists_cons_of_ne_nil hne
  cases vs <;> simp [dense, chars, Split.joinWith, quotedValue]

private theorem forall_mem_sizeChars {p : Char → Prop}
    (hopen : p '(') (hcomma : p ',') (hclose : p ')')
    (hsize : ∀ n ∈ size, ∀ c ∈ n, p c) : ∀ c ∈ sizeChars size, p c := by
  intro c hc
  unfold sizeChars at hc
  split at hc
  · cases hc
  · rcases List.mem_append.mp hc with hc | hc
    · rcases List.mem_cons.mp hc with rfl | hc
      · exact hopen
      · obtain rfl | ⟨n, hn, hmem⟩ := mem_joinWith hc
        · exact hcomma
        · exact hsize n hn c hmem
    · obtain rfl := List.mem_singleton.mp hc
      exact hclose

theorem quote_not_mem_dense (h : Formed (.plain base size modifiers)) :
    '\'' ∉ dense (.plain base size modifiers) := by
  cases h with
  | plain hbase hsize _ hmodifiers =>
    have hnumbers : ∀ c ∈ sizeChars size, '\'' ≠ c := by
      refine forall_mem_sizeChars (by decide) (by decide) (by decide) fun n hn c hc => ?_
      rintro rfl
      exact absurd ((hsize n hn).2 _ hc) (by decide)
    intro hmem
    rcases List.mem_append.mp hmem with hmem | hmem
    · exact quote_not_mem_of_letters (letters_of_base hbase) hmem
    · rcases List.mem_append.mp hmem with hmem | hmem
      · exact hnumbers _ hmem rfl
      · obtain ⟨m, hm, hquote⟩ := List.mem_flatten.mp hmem
        have hmodifier := isModifier_of_spelled (hmodifiers m hm)
        exact quote_not_mem_of_letters hmodifier.letters hquote

/-! ## Plain types that are read -/

private theorem condense_sizeNumber? (h : sizeNumber? s = some n) : condense s = n := by
  have hdecimal := (decimal_of_sizeNumber? h).2
  simp only [sizeNumber?, Option.ite_none_right_eq_some, Option.some.injEq] at h
  rw [← condense_trim, h.2, condense_decimals hdecimal]

private theorem condense_sizeNumbers? (h : sizeNumbers? s = some size) :
    condense s = Split.joinWith [','] size ∧ size ≠ [] ∧ size.length ≤ 2 := by
  rw [← joinWith_splitOn ',' s, condense_joinWith]
  unfold sizeNumbers? at h
  split at h
  · rename_i a hpieces
    obtain ⟨n, hn, rfl⟩ := Option.map_eq_some_iff.mp h
    rw [hpieces, ← condense_sizeNumber? hn]
    simp
  · rename_i a b hpieces
    obtain ⟨n, hn, h⟩ := Option.bind_eq_some_iff.mp h
    obtain ⟨m, hm, rfl⟩ := Option.map_eq_some_iff.mp h
    rw [hpieces, ← condense_sizeNumber? hn, ← condense_sizeNumber? hm]
    simp
  · cases h

private theorem condense_size? (h : size? s = some (size, r)) :
    condense s = sizeChars size ++ condense r ∧ size.length ≤ 2 := by
  unfold size? at h
  split at h
  · rename_i rest hdrop
    obtain ⟨⟨inner, behind⟩, hcut, h⟩ := Option.bind_eq_some_iff.mp h
    obtain ⟨size', hsize, heq⟩ := Option.map_eq_some_iff.mp h
    cases heq
    obtain ⟨hinner, hne, hlength⟩ := condense_sizeNumbers? hsize
    obtain ⟨hrest, _⟩ := cutFirst?_eq_some_iff.mp hcut
    have hparts : '(' :: rest = ['('] ++ (inner ++ ([')'] ++ behind)) := by rw [hrest]; rfl
    have hopen : condense ['('] = ['('] := by decide
    have hclose : condense [')'] = [')'] := by decide
    refine ⟨?_, hlength⟩
    rw [← condense_dropBlanks, hdrop, hparts, condense_append, condense_append, condense_append,
      hinner, hopen, hclose, sizeChars, if_neg (by simpa using hne)]
    simp
  · cases h
    exact ⟨rfl, Nat.zero_le 2⟩

private theorem condense_modifiers? (h : modifiers? s = some modifiers) :
    condense s = modifiers.flatten := by
  simp only [modifiers?, Option.ite_none_right_eq_some, Option.some.injEq] at h
  rw [← h.2, condense_words]

private theorem of_plain? {t : ColumnType} (h : plain? s = some t) :
    Formed t ∧ condense s = dense t ∧ '\'' ∉ dense t := by
  simp only [plain?, Option.ite_none_right_eq_some, List.contains_iff_mem] at h
  obtain ⟨hbase, h⟩ := h
  obtain ⟨⟨size, rest⟩, hsize, h⟩ := Option.bind_eq_some_iff.mp h
  obtain ⟨modifiers, hmodifiers, rfl⟩ := Option.map_eq_some_iff.mp h
  obtain ⟨hdense, hlength⟩ := condense_size? hsize
  have hformed : Formed (.plain _ size modifiers) :=
    .plain hbase (decimal_of_size? hsize) hlength (spelled_of_modifiers? hmodifiers)
  refine ⟨hformed, ?_, quote_not_mem_dense hformed⟩
  have hvisible : ∀ c ∈ (Blank.dropBlanks s).takeWhile isBaseLetter, isBlank c = false :=
    fun c hc => isBlank_of_letter (List.mem_takeWhile_imp hc)
  calc condense s
      = condense ((Blank.dropBlanks s).takeWhile isBaseLetter ++
          (Blank.dropBlanks s).dropWhile isBaseLetter) := by
        rw [List.takeWhile_append_dropWhile, condense_dropBlanks]
    _ = LetterCase.upper ((Blank.dropBlanks s).takeWhile isBaseLetter) ++
          (sizeChars size ++ modifiers.flatten) := by
        rw [condense_append, condense_visible hvisible, hdense, condense_modifiers? hmodifiers]
    _ = dense _ := by rw [dense, String.toList_ofList]

/-! ## Choices that are read -/

theorem not_mem_of_values {c : Char} (hc : isValueChar c = false)
    (h : ∀ d ∈ v, isValueChar d = true) : c ∉ v := by
  intro hmem
  rw [h c hmem] at hc
  cases hc

private theorem of_listedValue? (h : listedValue? s = some v) :
    (∀ c ∈ v, isValueChar c = true) ∧ ∃ a b, s = a ++ (quotedValue v ++ b) ∧
      (∀ c ∈ a, isBlank c = true) ∧ ∀ c ∈ b, isBlank c = true := by
  unfold listedValue? at h
  split at h
  · rename_i rest htrim
    simp only [Option.ite_none_right_eq_some, Bool.and_eq_true, beq_iff_eq, List.all_eq_true,
      Option.some.injEq] at h
    obtain ⟨⟨hlast, hvalue⟩, rfl⟩ := h
    obtain ⟨front, rfl⟩ := List.getLast?_eq_some_iff.mp hlast
    obtain ⟨a, b, hs, ha, hb⟩ := exists_trim s
    rw [List.dropLast_concat] at hvalue ⊢
    refine ⟨hvalue, a, b, ?_, ha, hb⟩
    rw [hs, htrim, List.append_assoc]
    rfl
  · cases h

private theorem condensed_listedValue? (h : listedValue? s = some v) (r : List Char) :
    condensed (s ++ r) = quotedValue v ++ condensed r := by
  obtain ⟨hvalue, a, b, rfl, ha, hb⟩ := of_listedValue? h
  rw [List.append_assoc, condensed_blanks ha, List.append_assoc,
    condensed_quoted (not_mem_of_values (by decide) hvalue), condensed_blanks hb]

private theorem of_pieces (h : pieces.mapM listedValue? = some values) :
    values.length = pieces.length ∧ (∀ v ∈ values, ∀ c ∈ v, isValueChar c = true) ∧
      ∀ r, condensed (Split.joinWith [','] pieces ++ r) =
        Split.joinWith [','] (values.map quotedValue) ++ condensed r := by
  induction pieces generalizing values with
  | nil =>
    cases h
    exact ⟨rfl, nofun, fun r => rfl⟩
  | cons p ps ih =>
    simp only [List.mapM_cons, Option.bind_eq_bind, Option.bind_eq_some_iff] at h
    obtain ⟨v, hv, vs, hvs, heq⟩ := h
    cases heq
    obtain ⟨hlength, hvalues, hcondensed⟩ := ih hvs
    refine ⟨congrArg (· + 1) hlength, List.forall_mem_cons.mpr ⟨(of_listedValue? hv).1, hvalues⟩,
      fun r => ?_⟩
    -- a comma stands behind every piece but the last
    cases ps with
    | nil =>
      obtain rfl := List.eq_nil_of_length_eq_zero hlength
      exact condensed_listedValue? hv r
    | cons q ps =>
      have hps : q :: ps ≠ [] := List.cons_ne_nil q ps
      have hne : vs.map quotedValue ≠ [] := by
        intro hnil
        rw [List.map_eq_nil_iff.mp hnil] at hlength
        cases hlength
      rw [joinWith_cons p hps, List.append_assoc, condensed_listedValue? hv, List.cons_append,
        condensed_mark (by decide) (by decide), hcondensed, List.map_cons, joinWith_cons _ hne]
      simp

private theorem of_listedValues? (h : listedValues? s = some values) :
    values ≠ [] ∧ (∀ v ∈ values, ∀ c ∈ v, isValueChar c = true) ∧ ∀ r, condensed (s ++ r) =
      '(' :: Split.joinWith [','] (values.map quotedValue) ++ [')'] ++ condensed r := by
  unfold listedValues? at h
  split at h
  · rename_i rest hdrop
    simp only [Option.ite_none_right_eq_some, beq_iff_eq] at h
    obtain ⟨hlast, h⟩ := h
    obtain ⟨front, rfl⟩ := List.getLast?_eq_some_iff.mp hlast
    rw [List.dropLast_concat] at h
    obtain ⟨hlength, hvalues, hcondensed⟩ := of_pieces h
    rw [joinWith_splitOn] at hcondensed
    have hne : values ≠ [] := by
      rintro rfl
      exact splitOn_ne_nil ',' front (List.eq_nil_of_length_eq_zero hlength.symm)
    have hblanks : ∀ c ∈ s.takeWhile isBlank, isBlank c = true :=
      List.all_eq_true.mp List.all_takeWhile
    have hs : s = s.takeWhile isBlank ++ '(' :: (front ++ [')']) := by
      conv_lhs => rw [← List.takeWhile_append_dropWhile (p := isBlank) (l := s)]
      exact congrArg _ hdrop
    refine ⟨hne, hvalues, fun r => ?_⟩
    calc condensed (s ++ r)
        = condensed (s.takeWhile isBlank ++ '(' :: (front ++ ')' :: r)) := by
          conv_lhs => rw [hs]
          simp
      _ = '(' :: (Split.joinWith [','] (values.map quotedValue) ++ ')' :: condensed r) := by
          rw [condensed_blanks hblanks, condensed_mark (by decide) (by decide), hcondensed,
            condensed_mark (by decide) (by decide)]
      _ = _ := by simp
  · cases h

private theorem of_keyword {keyword : String} {t : ColumnType}
    (hascii : isAscii keyword.toList = true) (hsmall : isSmall keyword.toList = true)
    (h : ((LetterCase.afterKeyword? keyword (Blank.trim s)).bind fun r =>
      (listedValues? r).map fun values =>
        .choice (LetterCase.upper ((Blank.trim s).take keyword.length)) values) = some t) :
    ∃ base values, t = .choice base values ∧ base ∈ spellings keyword ∧ values ≠ [] ∧
      (∀ v ∈ values, ∀ c ∈ v, isValueChar c = true) ∧ condensed s = dense t := by
  obtain ⟨r, hr, h⟩ := Option.bind_eq_some_iff.mp h
  obtain ⟨values, hvalues, rfl⟩ := Option.map_eq_some_iff.mp h
  simp only [LetterCase.afterKeyword?, Option.ite_none_right_eq_some, Option.some.injEq] at hr
  obtain ⟨hkeyword, rfl⟩ := hr
  obtain ⟨hne, hchars, hcondensed⟩ := of_listedValues? hvalues
  obtain ⟨a, b, hs, ha, hb⟩ := exists_trim s
  have hb' : condensed b = [] := by
    have hnil := condensed_blanks hb []
    rwa [List.append_nil] at hnil
  refine ⟨_, values, rfl, upper_mem_spellings hascii hkeyword, hne, hchars, ?_⟩
  calc condensed s
      = condensed (a ++ ((Blank.trim s).take keyword.length ++
          ((Blank.trim s).drop keyword.length ++ b))) := by
        conv_lhs => rw [hs, ← List.take_append_drop keyword.length (Blank.trim s)]
        simp only [List.append_assoc]
    _ = dense _ := by
        rw [condensed_blanks ha, condensed_letters (letters_of_isKeyword hsmall hkeyword),
          hcondensed, hb', List.append_nil, dense, chars, List.append_assoc]

theorem of_choice? {t : ColumnType} (h : choice? s = some t) :
    Formed t ∧ condensed s = dense t ∧ '\'' ∈ dense t := by
  simp only [choice?] at h
  split at h
  · rename_i hc
    cases h
    obtain ⟨base, values, rfl, hspelled, hne, hvalues, hdense⟩ :=
      of_keyword (by decide) (by decide) hc
    exact ⟨.choice (.inl hspelled) hne hvalues, hdense, quote_mem_dense base hne⟩
  · obtain ⟨base, values, rfl, hspelled, hne, hvalues, hdense⟩ :=
      of_keyword (by decide) (by decide) h
    exact ⟨.choice (.inr hspelled) hne hvalues, hdense, quote_mem_dense base hne⟩

/-! ## Types that are read -/

theorem of_ofChars? {t : ColumnType} (h : ofChars? s = some t) :
    Formed t ∧ condensed s = dense t := by
  unfold ofChars? at h
  split at h
  · rename_i hchoice
    cases h
    obtain ⟨hformed, hdense, _⟩ := of_choice? hchoice
    exact ⟨hformed, hdense⟩
  · obtain ⟨hformed, hdense, hquote⟩ := of_plain? h
    rw [← hdense, quote_mem_condense_iff] at hquote
    exact ⟨hformed, condensed_eq_condense hquote ▸ hdense⟩

theorem ofValue_eq_ok_iff {s : String} {t : ColumnType} :
    ofValue (.text s) = .ok t ↔ ofChars? s.toList = some t := by
  rw [ofValue]
  cases ofChars? s.toList <;> simp

theorem Formed.spelled {t : ColumnType} (h : Formed t) : Spelled t := by
  cases h with
  | plain hbase hsize _ hmodifiers => exact .plain hbase hsize hmodifiers
  | choice hkeyword _ hvalues =>
    refine .choice hkeyword fun v hv c hc => ⟨?_, ?_⟩
    · rintro rfl
      exact not_mem_of_values (by decide) (hvalues v hv) hc
    · rintro rfl
      exact not_mem_of_values (by decide) (hvalues v hv) hc

theorem spelled_of_ofValue {s : String} {t : ColumnType} (h : ofValue (.text s) = .ok t) :
    Spelled t :=
  (of_ofChars? (ofValue_eq_ok_iff.mp h)).1.spelled

end QueryGateway.Proofs.Sql.TypeForms
