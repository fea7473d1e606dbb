import QueryGateway.Proofs.Sql.Sentences
import QueryGateway.Proofs.Sql.Words

/-!
The words that depend on what the caller gave are read by themselves: numbers, column types,
requests for the current time and defaults.
-/

set_option autoImplicit false
set_option relaxedAutoImplicit false

namespace QueryGateway.Proofs.Sql.Wordings

open QueryGateway.Number
open QueryGateway.Sql
open QueryGateway.Sql.Token
open QueryGateway.Text
open QueryGateway.Proofs.Sql.Lexemes
open QueryGateway.Proofs.Sql.Lexical
open QueryGateway.Proofs.Sql.Sentences
open QueryGateway.Proofs.Sql.Spelling
open QueryGateway.Proofs.Sql.Words

private theorem lexed_breaks {s : List Char} (h : ∀ c ∈ s, isBreak c = true) (rest : List Char) :
    Lexed s rest 0 := by
  induction s with
  | nil => exact lexed_nil rest
  | cons c s ih =>
    obtain ⟨hc, hs⟩ := List.forall_mem_cons.mp h
    exact (lexed_break hc _).cons (ih hs)

/-! ## Numbers -/

private theorem lexed_decimalText {s rest : List Char} (h : IsDecimalText s)
    (hrest : isParted rest = true) : Lexed s rest 0 := by
  obtain ⟨ds, fs, es, rfl, hne, hds, hfs, hes⟩ := h
  exact lexed_number hne hds hfs hes hrest

private theorem lexed_negated {s rest : List Char} (h : IsDecimalText s)
    (hrest : isParted rest = true) :
    Lexed ('-' :: s) rest 0 := by
  refine Lexed.cons ?_ (lexed_decimalText h hrest)
  obtain ⟨ds, fs, es, rfl, hne, hds, _⟩ := h
  cases ds with
  | nil => exact absurd rfl hne
  | cons d ds =>
    have hd := (List.forall_mem_cons.mp hds).1
    refine lexed_lexeme (r := []) (k := .other) (lexeme?_dash ?_ ?_ _) rfl
    · rintro rfl
      cases hd
    · rintro rfl
      cases hd

private theorem lexed_numberText {s rest : List Char} (h : IsNumberText s)
    (hrest : isParted rest = true) : Lexed s rest 0 := by
  rcases h with h | ⟨t, rfl, ht⟩
  · exact lexed_decimalText h hrest
  · exact lexed_negated ht hrest

private theorem isWording_ofList {s : List Char} (hplain : IsPlain (String.ofList s))
    (hlexed : ∀ rest, isParted rest = true → Lexed s rest 0) : IsWording (String.ofList s) :=
  ⟨hplain, fun rest hrest => by
    rw [String.toList_ofList]
    exact hlexed rest hrest⟩

theorem isWording_numbered {keyword : String} (h : isReadable true keyword = true) (n : Int) :
    IsWording (keyword ++ String.ofList (Numeral.ofInt n)) := by
  have hlead := isLead_of_check h
  simp only [isReadable, Bool.and_eq_true, Bool.not_eq_true', List.isEmpty_eq_false_iff] at h
  refine ⟨?_, fun rest hrest => ?_⟩
  · refine isPlain_of_isCalm ?_ ?_
    · simp [String.toList_append, h.1.1]
    · rw [String.toList_append, String.toList_ofList]
      exact isCalm_append h.1.2 (isNumberText_ofInt n).isCalm
  · rw [String.toList_append, String.toList_ofList]
    exact (hlead.lexed _).append (lexed_numberText (isNumberText_ofInt n) hrest)

/-! ## Sizes -/

private theorem isWordChar_of_isDecimal {c : Char} (h : Digit.isDecimal c = true) :
    isWordChar c = true := by
  have hascii : ∀ n < 128, Digit.isDecimal (Char.ofNat n) = true →
      isWordChar (Char.ofNat n) = true := by decide
  have hblocks : ∀ z ∈ Digit.zeros, 160 < z ∧ (z + 9 < 5760 ∨ 5760 < z) ∧
      (z + 9 < 8192 ∨ 12288 < z) := by decide
  have hmarks : ∀ d ∈ punctuation, d.toNat < 128 := lt_of_isAscii (by decide)
  by_cases hlow : c.toNat < 128
  · have hc := hascii c.toNat hlow
    rw [Char.ofNat_toNat] at hc
    exact hc h
  · rw [Digit.isDecimal, Digit.value?, if_neg hlow, Option.isSome_map] at h
    obtain ⟨z, hz⟩ := Option.isSome_iff_exists.mp h
    have hrange := List.find?_some hz
    simp only [Bool.and_eq_true, decide_eq_true_eq] at hrange
    have hblock := hblocks z (List.mem_of_find?_eq_some hz)
    have hblank : Blank.isBlank c = false := by
      simp [Blank.isBlank]
      omega
    have hmark : punctuation.contains c = false :=
      Bool.eq_false_iff.mpr fun hmem => hlow (hmarks c (List.contains_iff_mem.mp hmem))
    rw [isWordChar, hblank, hmark]
    rfl

private theorem numberLength_decimals {s rest : List Char} (hs : ∀ c ∈ s, Digit.isDecimal c = true)
    (hrest : isParted rest = true) : numberLength true 0 (s ++ rest) = s.length := by
  induction s with
  | nil => exact numberLength_parted true 0 hrest
  | cons c s ih =>
    obtain ⟨hc, hall⟩ := List.forall_mem_cons.mp hs
    have hne : ∀ {d : Char}, Digit.isDecimal d = false → c ≠ d := by
      rintro d hd rfl
      rw [hc] at hd
      cases hd
    have hword : wordLength (c :: s ++ rest) = s.length + 1 := by
      rw [wordLength, takeWhile_word (fun d hd => isWordChar_of_isDecimal (hs d hd)) hrest]
      rfl
    have hdot := hne (d := '.') (by decide)
    have hminus := hne (d := '-') (by decide)
    have hplus := hne (d := '+') (by decide)
    have hsmall := hne (d := 'e') (by decide)
    have hcapital := hne (d := 'E') (by decide)
    rw [List.cons_append] at hword ⊢
    simp [numberLength, ih hall, hdot, hminus, hplus, hsmall, hcapital, hword]

private theorem toUpper_eq_self {c : Char} (h : ¬c.toNat < 128) : c.toUpper = c := by
  unfold Char.toUpper
  rw [dif_neg]
  rintro ⟨_, hz⟩
  have hle : c.toNat ≤ 122 := hz
  omega

private theorem isInert_of_isDecimal {c : Char} {w : List Char} (h : Digit.isDecimal c = true)
    (hc : ¬c.toNat < 128) : isInert (c :: w) = true := by
  have hupper : LetterCase.upperOf c = [c] :=
    upperOf_eq_self (p := Digit.isDecimal) (by decide) (by decide) h
  have hhead : ∀ {k : String} {t : List Char}, isAscii k.toList = true → k.toList ≠ c :: t := by
    intro k t hk heq
    exact hc (lt_of_isAscii hk c (by rw [heq]; exact List.mem_cons_self))
  have hopening : isOneOf openingWords (c :: w) = false := by
    have hall : ∀ k ∈ openingWords, isAscii k.toList = true := by decide
    refine List.any_eq_false.mpr fun k hk heq => ?_
    rw [beq_iff_eq, LetterCase.upper, List.flatMap_cons, hupper] at heq
    exact hhead (hall k hk) heq
  have hplainly : ∀ k : String, isAscii k.toList = true → isPlainly k (c :: w) = false := by
    intro k hk
    refine beq_eq_false_iff_ne.mpr fun heq => ?_
    rw [List.map_cons, toUpper_eq_self hc] at heq
    exact hhead hk heq.symm
  have hkind : wordKind (c :: w) ≠ .opening := by
    unfold wordKind
    rw [hopening]
    split <;> decide
  rw [isInert, bne_iff_ne.mpr hkind, hplainly "LOCK" (by decide), hplainly "UNLOCK" (by decide)]
  rfl

private theorem lexed_decimals {s rest : List Char} (hne : s ≠ [])
    (hs : ∀ c ∈ s, Digit.isDecimal c = true) (hrest : isParted rest = true) :
    Lexed s rest 0 := by
  cases s with
  | nil => exact absurd rfl hne
  | cons c s =>
    obtain ⟨hc, hall⟩ := List.forall_mem_cons.mp hs
    cases hdigit : c.isDigit with
    | true =>
      have hhead : ∀ d ∈ (s ++ rest).head?, d ∉ radixLetters := by
        refine forall_head_append (fun d hd => ?_) (head_notMem_radixLetters hrest)
        exact notMem_radixLetters (p := Digit.isDecimal) (by decide)
          (hall d (List.mem_of_mem_head? hd))
      refine lexed_lexeme (k := .other) ?_ rfl
      rw [lexeme?_digit hdigit hhead, numberLength_decimals hall hrest]
    | false =>
      have hascii : ∀ n < 128, Digit.isDecimal (Char.ofNat n) = true →
          (Char.ofNat n).isDigit = true := by decide
      have hlow : ¬c.toNat < 128 := by
        intro hlow
        have hc' := hascii c.toNat hlow
        rw [Char.ofNat_toNat, hdigit] at hc'
        cases hc' hc
      refine lexed_word (fun d hd => isWordChar_of_isDecimal (hs d hd)) ?_ hrest
      rw [isClearWord, hdigit, isInert_of_isDecimal hc hlow]
      rfl

/-! ## Column types -/

private theorem lexed_joinWith {parts : List (List Char)}
    (h : ∀ p ∈ parts, ∀ rest, isParted rest = true → Lexed p rest 0) {rest : List Char}
    (hrest : isParted rest = true) : Lexed (Split.joinWith [','] parts) rest 0 := by
  induction parts with
  | nil => exact lexed_nil rest
  | cons p parts ih =>
    obtain ⟨hp, hparts⟩ := List.forall_mem_cons.mp h
    cases parts with
    | nil => exact hp rest hrest
    | cons q parts =>
      have hcomma : Lexed (',' :: Split.joinWith [','] (q :: parts)) rest 0 :=
        (lexed_break rfl _).cons (ih hparts)
      have hall := (hp (',' :: Split.joinWith [','] (q :: parts) ++ rest) rfl).append hcomma
      rwa [← List.singleton_append, ← List.append_assoc] at hall

private theorem lexed_parenthesized {parts : List (List Char)}
    (h : ∀ p ∈ parts, ∀ rest, isParted rest = true → Lexed p rest 0) (rest : List Char) :
    Lexed ('(' :: Split.joinWith [','] parts ++ [')']) rest 0 := by
  have hinner : Lexed (Split.joinWith [','] parts) (')' :: rest) 0 := lexed_joinWith h rfl
  exact (lexed_break rfl _).cons (hinner.append (lexed_break rfl rest))

private theorem lexed_spelling {keyword : String} {w rest : List Char}
    (h : (spellings keyword).all (fun w => w.all isWordChar && isClearWord w) = true)
    (hw : w ∈ spellings keyword) (hrest : isParted rest = true) : Lexed w rest 0 := by
  have hall := List.all_eq_true.mp h w hw
  rw [Bool.and_eq_true, List.all_eq_true] at hall
  exact lexed_word hall.1 hall.2 hrest

private theorem isParted_modifiers (modifiers : List (List Char)) {rest : List Char}
    (hrest : isParted rest = true) :
    isParted ((modifiers.flatMap fun m => ' ' :: m) ++ rest) = true := by
  cases modifiers with
  | nil => exact hrest
  | cons _ _ => rfl

private theorem lexed_modifiers {modifiers : List (List Char)}
    (h : ∀ m ∈ modifiers, m ∈ spellings "unsigned" ∨ m ∈ spellings "zerofill") {rest : List Char}
    (hrest : isParted rest = true) : Lexed (modifiers.flatMap fun m => ' ' :: m) rest 0 := by
  induction modifiers with
  | nil => exact lexed_nil rest
  | cons m modifiers ih =>
    obtain ⟨hm, hmodifiers⟩ := List.forall_mem_cons.mp h
    have hafter := isParted_modifiers modifiers hrest
    have hword : Lexed m ((modifiers.flatMap fun m => ' ' :: m) ++ rest) 0 := by
      rcases hm with hm | hm
      · exact lexed_spelling (by decide) hm hafter
      · exact lexed_spelling (by decide) hm hafter
    exact ((lexed_break rfl _).cons hword).append (ih hmodifiers)

private theorem quoteLiteral_eq {v : List Char} (hv : ∀ c ∈ v, c ≠ '\'' ∧ c ≠ '\\') :
    Fragment.quoteLiteral v = ColumnType.quotedValue v := by
  have hself : v.flatMap Fragment.escapeChar = v := by
    induction v with
    | nil => rfl
    | cons c v ih =>
      obtain ⟨⟨hquote, hslash⟩, hrest⟩ := List.forall_mem_cons.mp hv
      rw [List.flatMap_cons, ih hrest, Fragment.escapeChar, if_neg (by simp [hquote, hslash])]
      rfl
  rw [Fragment.quoteLiteral, hself, ColumnType.quotedValue]

private theorem lexed_type {t : ColumnType} (h : Spelled t) {rest : List Char}
    (hrest : isParted rest = true) : Lexed t.chars rest 0 := by
  cases h with
  | @plain base size modifiers hbase hsize hmodifiers =>
    have hbases : ColumnType.plainBases.all
        (fun base => base.toList.all isWordChar && isClearWord base.toList) = true := by
      decide +kernel
    obtain ⟨hword, hclear⟩ := Bool.and_eq_true_iff.mp (List.all_eq_true.mp hbases base hbase)
    rw [List.all_eq_true] at hword
    have hsizes : ∀ n ∈ size, ∀ rest, isParted rest = true → Lexed n rest 0 :=
      fun n hn _ => lexed_decimals (hsize n hn).1 (hsize n hn).2
    have hback := lexed_modifiers hmodifiers hrest
    have hafter := isParted_modifiers modifiers hrest
    rw [ColumnType.chars]
    split
    · rw [List.append_nil]
      exact (lexed_word hword hclear hafter).append hback
    · refine Lexed.append (m := 0) (Lexed.append (m := 0) ?_ (lexed_parenthesized hsizes _)) hback
      exact lexed_word hword hclear rfl
  | @choice base values hbase hvalues =>
    have hlist : ∀ p ∈ values.map ColumnType.quotedValue, ∀ rest, isParted rest = true →
        Lexed p rest 0 := by
      intro p hp rest hrest
      obtain ⟨v, hv, rfl⟩ := List.mem_map.mp hp
      rw [← quoteLiteral_eq (hvalues v hv)]
      exact lexed_literal v hrest
    have hfront : ∀ r, isParted r = true → Lexed base r 0 := by
      intro r hr
      rcases hbase with hbase | hbase
      · exact lexed_spelling (by decide) hbase hr
      · exact lexed_spelling (by decide) hbase hr
    have hall := (hfront _ rfl).append (lexed_parenthesized hlist rest)
    simpa [ColumnType.chars] using hall

theorem isWording_type {t : ColumnType} (h : Spelled t) : IsWording (" " ++ t.text) := by
  refine ⟨isPlain_type (writable_of_spelled h), fun rest hrest => ?_⟩
  rw [toList_spaced]
  exact (lexed_break rfl _).cons (lexed_type h hrest)

/-! ## Defaults -/

private theorem isBreak_of_isBlank {c : Char} (h : Blank.isBlank c = true) : isBreak c = true := by
  rw [isBreak, h, Bool.true_or]

private theorem lexed_precision {s : List Char} (h : IsPrecision s) {rest : List Char} :
    Lexed s rest 0 := by
  rcases h with rfl | ⟨a, d, b, rfl, hblank, hd⟩
  · exact lexed_nil rest
  · obtain ⟨ha, hb⟩ := List.forall_mem_append.mp hblank
    have hback : Lexed (b ++ [')']) rest 0 := lexed_breaks (List.forall_mem_append.mpr
      ⟨fun c hc => isBreak_of_isBlank (hb c hc), List.forall_mem_singleton.mpr rfl⟩) rest
    have hafter : isParted (b ++ [')'] ++ rest) = true := by
      cases b with
      | nil => rfl
      | cons c b => exact isBreak_of_isBlank (hb c List.mem_cons_self)
    have hdigit : Lexed [d] (b ++ [')'] ++ rest) 0 :=
      lexed_decimalText ⟨[d], [], [], rfl, nofun, List.forall_mem_singleton.mpr hd, .inl rfl,
        .inl rfl⟩ hafter
    have hfront := lexed_breaks (s := a) (fun c hc => isBreak_of_isBlank (ha c hc))
      ([d] ++ (b ++ [')']) ++ rest)
    have hall := (lexed_break (c := '(') rfl _).cons (hfront.append (hdigit.append hback))
    simpa using hall

private theorem lexed_normalTime {s rest : List Char} (h : Default.isCurrentTime s = true)
    (hrest : isParted rest = true) : Lexed (Default.normalTime s) rest 0 := by
  obtain ⟨w, p, htime, hw, hp⟩ := exists_normalTime h
  have hafter : isParted (p ++ rest) = true := by
    rcases hp with rfl | ⟨a, d, b, rfl, _⟩
    · exact hrest
    · rfl
  rw [htime]
  exact (lexed_spelling (by decide) hw hafter).append (lexed_precision hp)

private theorem isWording_unquoted {s : List Char} (h : IsUnquoted s) :
    IsWording (String.ofList s) := by
  refine isWording_ofList (isPlain_ofList h.ne_nil h.isCalm) fun rest hrest => ?_
  cases h with
  | keyword hk =>
    have hall : ∀ k ∈ defaultKeywords, isReadable false k = true := by decide
    exact (isWording_of_check (hall _ hk)).lexed rest hrest
  | number hs => exact lexed_numberText hs hrest
  | time hs => exact lexed_normalTime hs hrest

theorem default_cases {v : Value} {f : Fragment} (h : Default.ofValue v = .ok f) :
    (∃ s, IsWording s ∧ f = .words s) ∨ ∃ content, f = .literal content := by
  rcases unquoted_or_literal h with ⟨s, hs, rfl⟩ | hliteral
  · exact .inl ⟨_, isWording_unquoted hs, rfl⟩
  · exact .inr hliteral

end QueryGateway.Proofs.Sql.Wordings
