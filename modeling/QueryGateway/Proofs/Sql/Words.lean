import QueryGateway.Proofs.Failure.Texts
import QueryGateway.Proofs.Sql.Lexemes
import QueryGateway.Proofs.Sql.Lexical
import QueryGateway.Proofs.Sql.Spelling

/-!
The words of statements that depend on what the caller gave: numbers, column types and defaults.
None of them can start or end a quotation or a comment.
-/

set_option autoImplicit false
set_option relaxedAutoImplicit false

namespace QueryGateway.Proofs.Sql.Words

open QueryGateway.Number
open QueryGateway.Sql
open QueryGateway.Text
open QueryGateway.Proofs.Failure.Texts
open QueryGateway.Proofs.Number.Numeral
open QueryGateway.Proofs.Sql.Lexemes
open QueryGateway.Proofs.Sql.Lexical
open QueryGateway.Proofs.Sql.Spelling
open QueryGateway.Proofs.Success

/-! ## Classes of characters -/

def loudChars : List Char := ['\'', '"', '`', ';', '#', '-', '/']

private theorem isQuiet_eq_false {c : Char} : isQuiet c = false ↔ c ∈ loudChars := by
  simp only [isQuiet, isMark, loudChars, Bool.not_eq_false', Bool.or_eq_true, beq_iff_eq,
    List.mem_cons, List.not_mem_nil, or_false, or_assoc]

private theorem isQuiet_of_class {p : Char → Bool} (hp : loudChars.any p = false) {c : Char}
    (hc : p c = true) : isQuiet c = true := by
  cases hq : isQuiet c with
  | true => rfl
  | false => exact absurd hc (List.any_eq_false.mp hp c (isQuiet_eq_false.mp hq))

private theorem isQuiet_of_isDigit {c : Char} (h : c.isDigit = true) : isQuiet c = true :=
  isQuiet_of_class (p := Char.isDigit) (by decide) h

private theorem isQuiet_of_isDecimal {c : Char} (h : Digit.isDecimal c = true) : isQuiet c = true :=
  isQuiet_of_class (p := Digit.isDecimal) (by decide) h

private theorem isQuiet_of_isBlank {c : Char} (h : Blank.isBlank c = true) : isQuiet c = true :=
  isQuiet_of_class (p := Blank.isBlank) (by decide) h

private theorem isQuiet_of_mem_spellings {keyword : String}
    (h : (spellings keyword).all (·.all isQuiet) = true) {w : List Char}
    (hw : w ∈ spellings keyword) : ∀ c ∈ w, isQuiet c = true :=
  List.all_eq_true.mp (List.all_eq_true.mp h w hw)

/-! ## Numbers -/

/-- A number in decimal notation: digits, a fraction and an exponent. -/
def IsDecimalText (s : List Char) : Prop :=
  ∃ ds fs es, s = ds ++ fs ++ es ∧ ds ≠ [] ∧ (∀ c ∈ ds, c.isDigit = true) ∧ IsFraction fs ∧
    IsExponent es

/-- A number in decimal notation, with a minus sign if it is negative. -/
def IsNumberText (s : List Char) : Prop :=
  IsDecimalText s ∨ ∃ t, s = '-' :: t ∧ IsDecimalText t

private theorem isDecimalText_digits (n : Nat) : IsDecimalText (Numeral.digits n) :=
  ⟨Numeral.digits n, [], [], by simp, digits_ne_nil n, isDigit_digits n, .inl rfl, .inl rfl⟩

private theorem isExponent_padded {sign : Char} (hsign : sign = '-' ∨ sign = '+') (n : Nat) :
    IsExponent ('e' :: sign :: Numeral.padded 2 n) := by
  have hdigits := isDigit_padded 2 n
  cases hpadded : Numeral.padded 2 n with
  | nil => exact absurd hpadded (padded_ne_nil 2 n)
  | cons d ds =>
    rw [hpadded] at hdigits
    exact .inr ⟨sign, d, ds, rfl, hsign, hdigits⟩

private theorem isDecimalText_layout (d : Nat) (last : Int) :
    IsDecimalText (Shortest.layout d last) := by
  have hdigits := isDigit_digits d
  have hne := digits_ne_nil d
  unfold Shortest.layout
  simp only
  split
  · split
    · exact ⟨['0'], '.' :: (_ ++ Numeral.digits d), [], (List.append_nil _).symm, nofun,
        List.forall_mem_singleton.mpr rfl,
        .inr ⟨_, rfl, List.forall_mem_append.mpr ⟨isDigit_zeros _, hdigits⟩⟩, .inl rfl⟩
    · split
      · exact ⟨_, ['.', '0'], [], (List.append_nil _).symm, by simp [hne],
          List.forall_mem_append.mpr ⟨hdigits, isDigit_zeros _⟩,
          .inr ⟨['0'], rfl, List.forall_mem_singleton.mpr rfl⟩, .inl rfl⟩
      · rename_i hpoint hlong
        refine ⟨_, '.' :: (Numeral.digits d).drop _, [], (List.append_nil _).symm, ?_,
          fun c hc => hdigits c (List.mem_of_mem_take hc),
          .inr ⟨_, rfl, fun c hc => hdigits c (List.mem_of_mem_drop hc)⟩, .inl rfl⟩
        intro hnil
        rcases List.take_eq_nil_iff.mp hnil with hzero | hnil
        · omega
        · exact hne hnil
  · have hexponent : IsExponent ('e' ::
        (if last + (Numeral.digits d).length - 1 < 0 then '-' else '+') ::
        Numeral.padded 2 (last + (Numeral.digits d).length - 1).natAbs) :=
      isExponent_padded (by split <;> simp) _
    split
    · rename_i hnil
      exact absurd hnil hne
    · rename_i c hone
      rw [hone] at hdigits
      exact ⟨[c], [], _, rfl, nofun, hdigits, .inl rfl, hexponent⟩
    · rename_i c r _ hmore
      rw [hmore] at hdigits
      obtain ⟨hc, hr⟩ := List.forall_mem_cons.mp hdigits
      exact ⟨[c], '.' :: r, _, rfl, nofun, List.forall_mem_singleton.mpr hc, .inr ⟨r, rfl, hr⟩,
        hexponent⟩

theorem isNumberText_ofInt (i : Int) : IsNumberText (Numeral.ofInt i) := by
  unfold Numeral.ofInt
  split
  · exact .inr ⟨_, rfl, isDecimalText_digits _⟩
  · exact .inl (isDecimalText_digits _)

private theorem isNumberText_float {x : Binary64} (hx : x.isFinite = true) :
    IsNumberText (Shortest.text x) := by
  cases x with
  | nan => cases hx
  | infinite s => cases hx
  | finite s m e =>
    have hsigned : ∀ {body : List Char}, IsDecimalText body →
        IsNumberText (if s then '-' :: body else body) := by
      intro body hbody
      split
      · exact .inr ⟨body, rfl, hbody⟩
      · exact .inl hbody
    refine hsigned ?_
    split
    · exact ⟨['0'], ['.', '0'], [], rfl, nofun, List.forall_mem_singleton.mpr rfl,
        .inr ⟨['0'], rfl, List.forall_mem_singleton.mpr rfl⟩, .inl rfl⟩
    · exact isDecimalText_layout _ _

private theorem isCalm_digits {s : List Char} (h : ∀ c ∈ s, c.isDigit = true) : isCalm s = true :=
  isCalm_of_quiet fun c hc => isQuiet_of_isDigit (h c hc)

private theorem isCalm_dash {d : Char} {s : List Char} (hd : d.isDigit = true)
    (h : isCalm (d :: s) = true) : isCalm ('-' :: d :: s) = true := by
  have hquiet := isQuiet_of_isDigit hd
  rw [isCalm, h, List.head?_cons, Option.any_some, hquiet]
  rfl

private theorem isCalm_fraction {s : List Char} (h : IsFraction s) : isCalm s = true := by
  rcases h with rfl | ⟨ds, rfl, hds⟩
  · rfl
  · exact isCalm_of_quiet (List.forall_mem_cons.mpr
      ⟨rfl, fun c hc => isQuiet_of_isDigit (hds c hc)⟩)

private theorem isCalm_exponent {s : List Char} (h : IsExponent s) : isCalm s = true := by
  have hletter : isCalm ['e'] = true := rfl
  have hplus : isCalm ['+'] = true := rfl
  rcases h with rfl | ⟨sign, d, ds, rfl, rfl | rfl, hds⟩
  · rfl
  · exact isCalm_append hletter
      (isCalm_dash (List.forall_mem_cons.mp hds).1 (isCalm_digits hds))
  · exact isCalm_append hletter (isCalm_append hplus (isCalm_digits hds))

theorem IsDecimalText.isCalm {s : List Char} (h : IsDecimalText s) : isCalm s = true := by
  obtain ⟨ds, fs, es, rfl, _, hds, hfs, hes⟩ := h
  exact isCalm_append (isCalm_append (isCalm_digits hds) (isCalm_fraction hfs))
    (isCalm_exponent hes)

private theorem IsDecimalText.exists_digit {s : List Char} (h : IsDecimalText s) :
    ∃ d t, s = d :: t ∧ d.isDigit = true := by
  obtain ⟨ds, fs, es, rfl, hne, hds, _⟩ := h
  obtain ⟨d, ds, rfl⟩ := List.exists_cons_of_ne_nil hne
  exact ⟨d, ds ++ fs ++ es, rfl, (List.forall_mem_cons.mp hds).1⟩

theorem IsNumberText.ne_nil {s : List Char} (h : IsNumberText s) : s ≠ [] := by
  rcases h with h | ⟨t, rfl, _⟩
  · obtain ⟨d, t, rfl, _⟩ := h.exists_digit
    exact List.cons_ne_nil d t
  · exact List.cons_ne_nil _ t

theorem IsNumberText.isCalm {s : List Char} (h : IsNumberText s) : isCalm s = true := by
  rcases h with h | ⟨t, rfl, ht⟩
  · exact h.isCalm
  · have hcalm := ht.isCalm
    obtain ⟨d, t, rfl, hd⟩ := ht.exists_digit
    exact isCalm_dash hd hcalm

/-! ## Column types -/

/-- A type that is read the way it is written: quiet outside its listed values, and no mark or
backslash within them. -/
inductive Writable : ColumnType → Prop
  | plain {base : String} {size modifiers : List (List Char)} :
      (∀ c ∈ base.toList, isQuiet c = true) → (∀ n ∈ size, ∀ c ∈ n, isQuiet c = true) →
      (∀ m ∈ modifiers, ∀ c ∈ m, isQuiet c = true) → Writable (.plain base size modifiers)
  | choice {base : List Char} {values : List (List Char)} : (∀ c ∈ base, isQuiet c = true) →
      (∀ v ∈ values, ∀ c ∈ v, c ≠ '\'' ∧ c ≠ '\\') → Writable (.choice base values)

theorem writable_of_spelled {t : ColumnType} (h : Spelled t) : Writable t := by
  cases h with
  | @plain base size modifiers hbase hsize hmodifiers =>
    have hbases : ∀ base ∈ ColumnType.plainBases, base.toList.all isQuiet = true := by decide
    refine .plain (List.all_eq_true.mp (hbases base hbase)) ?_ ?_
    · exact fun n hn c hc => isQuiet_of_isDecimal ((hsize n hn).2 c hc)
    · intro m hm
      rcases hmodifiers m hm with hspelled | hspelled
      · exact isQuiet_of_mem_spellings (by decide) hspelled
      · exact isQuiet_of_mem_spellings (by decide) hspelled
  | choice hbase hvalues =>
    refine .choice ?_ hvalues
    rcases hbase with hspelled | hspelled
    · exact isQuiet_of_mem_spellings (by decide) hspelled
    · exact isQuiet_of_mem_spellings (by decide) hspelled

private theorem joinWith_quiet {sep : List Char} (hsep : ∀ c ∈ sep, isQuiet c = true)
    {parts : List (List Char)} (h : ∀ p ∈ parts, ∀ c ∈ p, isQuiet c = true) :
    ∀ c ∈ Split.joinWith sep parts, isQuiet c = true := by
  induction parts with
  | nil => simp [Split.joinWith]
  | cons p parts ih =>
    obtain ⟨hp, hparts⟩ := List.forall_mem_cons.mp h
    cases parts with
    | nil => exact hp
    | cons q parts =>
      exact List.forall_mem_append.mpr ⟨List.forall_mem_append.mpr ⟨hp, hsep⟩, ih hparts⟩

def listedPieces (values : List (List Char)) : List Piece :=
  (values.map (Piece.quoted '\'')).intersperse (.bare ',')

def typePieces : ColumnType → List Piece
  | .plain base size modifiers => (ColumnType.plain base size modifiers).chars.map .bare
  | .choice base values => (base ++ ['(']).map .bare ++ (listedPieces values ++ [.bare ')'])

private theorem reads_listedValues {values : List (List Char)}
    (h : ∀ v ∈ values, ∀ c ∈ v, c ≠ '\'' ∧ c ≠ '\\') :
    Reads (Split.joinWith [','] (values.map ColumnType.quotedValue) ++ [')'])
      (listedPieces values ++ [.bare ')']) := by
  have hclose : Reads [')'] [.bare ')'] := reads_of_isCalm rfl
  induction values with
  | nil => exact hclose
  | cons v values ih =>
    obtain ⟨hv, hvalues⟩ := List.forall_mem_cons.mp h
    have hquoted : ReadsApart ('\'' :: v ++ ['\'']) [.quoted '\'' v] := readsApart_quotation rfl hv
    cases values with
    | nil => exact hquoted.append hclose rfl nofun
    | cons w values =>
      have hcomma : Reads [','] [.bare ','] := reads_of_isCalm rfl
      have hrest := hquoted.append (hcomma.append (ih hvalues)) rfl nofun
      simpa [Split.joinWith, ColumnType.quotedValue, listedPieces] using hrest

theorem mem_listedPieces {values : List (List Char)} {p : Piece} (h : p ∈ listedPieces values) :
    p = .bare ',' ∨ ∃ v, p = .quoted '\'' v := by
  induction values with
  | nil => cases h
  | cons v values ih =>
    cases values with
    | nil => exact .inr ⟨v, List.mem_singleton.mp h⟩
    | cons w values =>
      rcases List.mem_cons.mp h with rfl | h
      · exact .inr ⟨v, rfl⟩
      · rcases List.mem_cons.mp h with rfl | h
        · exact .inl rfl
        · exact ih h

private theorem areTame_listedPieces (values : List (List Char)) :
    AreTame (listedPieces values) := by
  intro p hp
  rcases mem_listedPieces hp with rfl | ⟨v, rfl⟩
  · exact ⟨rfl, rfl⟩
  · exact ⟨rfl, rfl⟩

private theorem isQuiet_plain {base : String} {size modifiers : List (List Char)}
    (hbase : ∀ c ∈ base.toList, isQuiet c = true) (hsize : ∀ n ∈ size, ∀ c ∈ n, isQuiet c = true)
    (hmodifiers : ∀ m ∈ modifiers, ∀ c ∈ m, isQuiet c = true) :
    ∀ c ∈ (ColumnType.plain base size modifiers).chars, isQuiet c = true := by
  refine List.forall_mem_append.mpr ⟨List.forall_mem_append.mpr ⟨hbase, ?_⟩, ?_⟩
  · split
    · simp
    · refine List.forall_mem_append.mpr ⟨List.forall_mem_cons.mpr ⟨rfl, ?_⟩,
        List.all_eq_true.mp rfl⟩
      exact joinWith_quiet (List.all_eq_true.mp rfl) hsize
  · intro c hc
    obtain ⟨m, hm, hc⟩ := List.mem_flatMap.mp hc
    rcases List.mem_cons.mp hc with rfl | hc
    · rfl
    · exact hmodifiers m hm c hc

private theorem reads_type {t : ColumnType} (h : Writable t) :
    Reads t.chars (typePieces t) ∧ AreTame (typePieces t) := by
  cases h with
  | plain hbase hsize hmodifiers =>
    have hcalm := isCalm_of_quiet (isQuiet_plain hbase hsize hmodifiers)
    exact ⟨reads_of_isCalm hcalm, areTame_of_isCalm hcalm⟩
  | @choice base values hbase hvalues =>
    have hfront : isCalm (base ++ ['(']) = true := isCalm_of_quiet
      (List.forall_mem_append.mpr ⟨hbase, List.all_eq_true.mp rfl⟩)
    have hall := (reads_of_isCalm hfront).append (reads_listedValues hvalues)
    refine ⟨by simpa [ColumnType.chars, typePieces] using hall, ?_⟩
    exact List.forall_mem_append.mpr ⟨areTame_of_isCalm hfront, List.forall_mem_append.mpr
      ⟨areTame_listedPieces values, areTame_of_isCalm (s := [')']) rfl⟩⟩

theorem toList_spaced (t : ColumnType) : (" " ++ t.text).toList = ' ' :: t.chars := by
  simp [ColumnType.text, String.toList_append]

theorem reads_spaced {t : ColumnType} (h : Writable t) :
    Reads (" " ++ t.text).toList (.bare ' ' :: typePieces t) := by
  have hblank : Reads [' '] [.bare ' '] := reads_of_isCalm rfl
  rw [toList_spaced]
  exact hblank.append (reads_type h).1

theorem isPlain_type {t : ColumnType} (h : Writable t) : IsPlain (" " ++ t.text) := by
  refine ⟨?_, ?_, _, reads_spaced h, List.forall_mem_cons.mpr ⟨⟨rfl, rfl⟩, (reads_type h).2⟩⟩
  · rw [toList_spaced]
    exact List.cons_ne_nil _ _
  · rw [toList_spaced]
    rfl

/-! ## Defaults -/

private theorem isQuiet_of_isPrecision {s : List Char} (h : IsPrecision s) :
    ∀ c ∈ s, isQuiet c = true := by
  rcases h with rfl | ⟨a, d, b, rfl, hblank, hd⟩
  · nofun
  · intro c hc
    simp only [List.cons_append, List.append_assoc, List.mem_cons, List.mem_append,
      List.not_mem_nil, or_false] at hc hblank
    rcases hc with rfl | hc | rfl | hc | rfl
    · rfl
    · exact isQuiet_of_isBlank (hblank c (.inl hc))
    · exact isQuiet_of_isDigit hd
    · exact isQuiet_of_isBlank (hblank c (.inr hc))
    · rfl

theorem isPlain_ofList {s : List Char} (hne : s ≠ []) (hcalm : isCalm s = true) :
    IsPlain (String.ofList s) :=
  isPlain_of_isCalm (by simpa using hne) (by simpa using hcalm)

private theorem normalTime_ne_nil {s : List Char} (h : Default.isCurrentTime s = true) :
    Default.normalTime s ≠ [] := by
  obtain ⟨w, p, htime, hw, _⟩ := exists_normalTime h
  have hne : ∀ w ∈ spellings Default.currentTime, w ≠ [] := by decide
  rw [htime]
  exact fun hnil => hne w hw (List.append_eq_nil_iff.mp hnil).1

private theorem isCalm_normalTime {s : List Char} (h : Default.isCurrentTime s = true) :
    isCalm (Default.normalTime s) = true := by
  obtain ⟨w, p, htime, hw, hp⟩ := exists_normalTime h
  rw [htime]
  exact isCalm_of_quiet (List.forall_mem_append.mpr
    ⟨isQuiet_of_mem_spellings (by decide) hw, isQuiet_of_isPrecision hp⟩)

def defaultKeywords : List String := ["NULL", "TRUE", "FALSE"]

/-- What a default is written in without quotes. -/
inductive IsUnquoted : List Char → Prop
  | keyword {k : String} : k ∈ defaultKeywords → IsUnquoted k.toList
  | number {s : List Char} : IsNumberText s → IsUnquoted s
  | time {s : List Char} : Default.isCurrentTime s = true → IsUnquoted (Default.normalTime s)

theorem IsUnquoted.ne_nil {s : List Char} (h : IsUnquoted s) : s ≠ [] := by
  cases h with
  | keyword hk =>
    have hall : ∀ k ∈ defaultKeywords, k.toList ≠ [] := by decide
    exact hall _ hk
  | number hs => exact hs.ne_nil
  | time hs => exact normalTime_ne_nil hs

theorem IsUnquoted.isCalm {s : List Char} (h : IsUnquoted s) : isCalm s = true := by
  cases h with
  | keyword hk =>
    have hall : ∀ k ∈ defaultKeywords, Lexical.isCalm k.toList = true := by decide
    exact hall _ hk
  | number hs => exact hs.isCalm
  | time hs => exact isCalm_normalTime hs

theorem unquoted_or_literal {v : Value} {f : Fragment} (h : Default.ofValue v = .ok f) :
    (∃ s, IsUnquoted s ∧ f = .words (String.ofList s)) ∨ ∃ content, f = .literal content := by
  have hkeyword : ∀ k ∈ defaultKeywords,
      ∃ s, IsUnquoted s ∧ Fragment.words k = .words (String.ofList s) := by
    intro k hk
    exact ⟨k.toList, .keyword hk, by rw [String.ofList_toList]⟩
  unfold Default.ofValue at h
  split at h
  · cases h
    exact .inl (hkeyword _ (by decide))
  · rename_i b
    cases h
    cases b with
    | false => exact .inl (hkeyword _ (by decide))
    | true => exact .inl (hkeyword _ (by decide))
  · rename_i i
    obtain ⟨s, hs, rfl⟩ := map_ok.mp h
    rw [(written_int_ok.mp hs).2]
    exact .inl ⟨_, .number (isNumberText_ofInt i), rfl⟩
  · split at h
    · rename_i hfinite
      cases h
      exact .inl ⟨_, .number (isNumberText_float hfinite), rfl⟩
    · cases h
  · simp only [Default.ofText] at h
    split at h
    · rename_i htime
      cases h
      exact .inl ⟨_, .time htime, rfl⟩
    · unfold Fragment.ofText at h
      split at h
      · cases h
      · cases h
        exact .inr ⟨_, rfl⟩
  · cases h

end QueryGateway.Proofs.Sql.Words
