import QueryGateway.Proofs.Sql.Literals
import QueryGateway.Proofs.Sql.Spelling

/-!
Defaults that are given as texts. A text that asks for the current time is written without quotes,
any other as a literal. What stands without quotes is the plain keyword of the server unless the
request was written with the dotted capital I or with other white space than blanks.
-/

set_option autoImplicit false
set_option relaxedAutoImplicit false

namespace QueryGateway.Proofs.Sql.Defaults

open QueryGateway.Sql
open QueryGateway.Sql.Default (currentTime)
open QueryGateway.Text
open QueryGateway.Proofs.Sql.Literals
open QueryGateway.Proofs.Sql.Spelling
open QueryGateway.Proofs.Text.Blank (isBlank_of_class)

/-- The current time as it stands in a definition: the keyword, alone or with one ASCII digit. -/
inductive IsTimeKeyword : List Char → Prop
  | plain : IsTimeKeyword "CURRENT_TIMESTAMP".toList
  | precise {d : Char} : '0' ≤ d → d ≤ '6' →
      IsTimeKeyword ("CURRENT_TIMESTAMP(".toList ++ [d, ')'])

/-- A text that asks for the current time: the keyword in any letters that count as its own, and
perhaps a digit in parentheses with white space around it. -/
inductive IsTimeRequest : List Char → Prop
  | plain {w : List Char} : LetterCase.isKeyword currentTime w = true → IsTimeRequest w
  | precise {w a b : List Char} {d : Char} : LetterCase.isKeyword currentTime w = true →
      (∀ c ∈ a, Blank.isBlank c = true) → (∀ c ∈ b, Blank.isBlank c = true) → '0' ≤ d → d ≤ '6' →
      IsTimeRequest (w ++ '(' :: (a ++ d :: b) ++ [')'])

variable {w a b : List Char} {d : Char}

private theorem isDigit_of_bounds (hlow : '0' ≤ d) (hhigh : d ≤ '6') : d.isDigit = true :=
  Bool.and_eq_true_iff.mpr ⟨decide_eq_true hlow, decide_eq_true (Char.le_trans hhigh (by decide))⟩

/-! ## Requests -/

private theorem isTimeRequest_of_isCurrentTime {s : List Char}
    (h : Default.isCurrentTime s = true) :
    IsTimeRequest s := by
  rw [Default.isCurrentTime, LetterCase.afterKeyword?] at h
  split at h
  · rename_i hkeyword
    rw [← List.take_append_drop currentTime.length s]
    rcases isPrecision_iff.mp h with hnil | ⟨a, d, b, hrest, ha, hb, hlow, hhigh⟩
    · rw [hnil, List.append_nil]
      exact .plain hkeyword
    · rw [hrest, ← List.append_assoc]
      exact .precise hkeyword ha hb hlow hhigh
  · cases h

private theorem isCurrentTime_append {p : List Char}
    (hw : LetterCase.isKeyword currentTime w = true)
    (hp : Default.isPrecision p = true) : Default.isCurrentTime (w ++ p) = true := by
  have hlength : currentTime.length = w.length := by
    rw [← List.length_map, map_fold_of_isKeyword hw]
    rfl
  simp only [Default.isCurrentTime, LetterCase.afterKeyword?, hlength, List.take_left,
    List.drop_left, hw, if_true, Option.map_some, Option.getD_some, hp]

private theorem isCurrentTime_iff {s : List Char} :
    Default.isCurrentTime s = true ↔ IsTimeRequest s := by
  refine ⟨isTimeRequest_of_isCurrentTime, fun h => ?_⟩
  cases h with
  | plain hw =>
    rw [← List.append_nil s]
    exact isCurrentTime_append hw rfl
  | precise hw ha hb hlow hhigh =>
    rw [List.append_assoc]
    exact isCurrentTime_append hw (isPrecision_iff.mpr (.inr ⟨_, _, _, rfl, ha, hb, hlow, hhigh⟩))

/-! ## Letters -/

def dottedI : Char := Char.ofNat 0x130

private theorem upper_eq_keyword_iff (hw : LetterCase.isKeyword currentTime w = true) :
    LetterCase.upper w = "CURRENT_TIMESTAMP".toList ↔ dottedI ∉ w := by
  constructor
  · intro hupper hmem
    have hkept : dottedI ∈ LetterCase.upper w :=
      List.mem_flatMap.mpr ⟨dottedI, hmem, by decide⟩
    rw [hupper] at hkept
    exact absurd hkept (by decide)
  · intro hnot
    have hspellings : ∀ t ∈ spellings currentTime,
        t = "CURRENT_TIMESTAMP".toList ∨ dottedI ∈ t := by decide
    rcases hspellings _ (upper_mem_spellings (by decide) hw) with hplain | hdotted
    · exact hplain
    · obtain ⟨c, hc, hupper⟩ := List.mem_flatMap.mp hdotted
      have heq : c = dottedI := eq_of_mem_upperOf (by decide) (by decide) hupper
      exact absurd (heq ▸ hc) hnot

private theorem length_upper (hw : LetterCase.isKeyword currentTime w = true) :
    (LetterCase.upper w).length = "CURRENT_TIMESTAMP".toList.length := by
  have hlengths : ∀ t ∈ spellings currentTime,
      t.length = "CURRENT_TIMESTAMP".toList.length := by decide
  exact hlengths _ (upper_mem_spellings (by decide) hw)

/-! ## Requests as they are written -/

private theorem normalTime_plain (hw : LetterCase.isKeyword currentTime w = true) :
    Default.normalTime w = LetterCase.upper w := by
  have hnormal := normalTime_append hw []
  have hnil : (LetterCase.upper []).filter (· != ' ') = [] := rfl
  rwa [hnil, List.append_nil, List.append_nil] at hnormal

private theorem normalTime_precise (hw : LetterCase.isKeyword currentTime w = true)
    (ha : ∀ c ∈ a, Blank.isBlank c = true) (hb : ∀ c ∈ b, Blank.isBlank c = true)
    (hd : d.isDigit = true) :
    Default.normalTime (w ++ '(' :: (a ++ d :: b) ++ [')']) =
      LetterCase.upper w ++
        ('(' :: (a.filter (· != ' ') ++ d :: b.filter (· != ' ')) ++ [')']) := by
  have hnormal := normalTime_append hw ('(' :: (a ++ d :: b) ++ [')'])
  rw [filter_upper_precision ha hb hd] at hnormal
  rw [List.append_assoc, hnormal]

private theorem isTimeKeyword_upper_iff (hw : LetterCase.isKeyword currentTime w = true) :
    IsTimeKeyword (LetterCase.upper w) ↔ dottedI ∉ w := by
  rw [← upper_eq_keyword_iff hw]
  constructor
  · intro h
    have hlength := length_upper hw
    generalize LetterCase.upper w = t at h hlength
    cases h with
    | plain => rfl
    | precise => simp at hlength
  · intro h
    rw [h]
    exact .plain

private theorem isTimeKeyword_precise_iff (hw : LetterCase.isKeyword currentTime w = true)
    (hlow : '0' ≤ d) (hhigh : d ≤ '6') :
    IsTimeKeyword (LetterCase.upper w ++ ('(' :: (a ++ d :: b) ++ [')'])) ↔
      dottedI ∉ w ∧ a = [] ∧ b = [] := by
  have hopen : "CURRENT_TIMESTAMP(".toList = "CURRENT_TIMESTAMP".toList ++ ['('] := by decide
  rw [← upper_eq_keyword_iff hw]
  constructor
  · intro h
    have hlength := length_upper hw
    generalize ht : LetterCase.upper w ++ ('(' :: (a ++ d :: b) ++ [')']) = t at h
    cases h with
    | plain =>
      have hlengths := congrArg List.length ht
      rw [List.length_append, hlength] at hlengths
      simp at hlengths
    | precise =>
      rw [hopen, List.append_assoc] at ht
      obtain ⟨hword, hrest⟩ := List.append_inj ht hlength
      have hinner := congrArg List.length hrest
      simp only [List.cons_append, List.append_assoc, List.length_cons, List.length_append,
        List.length_nil] at hinner
      exact ⟨hword, List.eq_nil_of_length_eq_zero (by omega),
        List.eq_nil_of_length_eq_zero (by omega)⟩
  · rintro ⟨hword, rfl, rfl⟩
    have hform := IsTimeKeyword.precise hlow hhigh
    rw [hopen, List.append_assoc] at hform
    rw [hword]
    exact hform

/-- A character that a request may be made with if it is to be written as the plain keyword. -/
def IsOrdinary (c : Char) : Prop := c ≠ dottedI ∧ (Blank.isBlank c = true → c = ' ')

instance (c : Char) : Decidable (IsOrdinary c) := inferInstanceAs (Decidable (_ ∧ _))

private theorem isOrdinary_iff_of_blank (ha : ∀ c ∈ a, Blank.isBlank c = true) :
    (∀ c ∈ a, IsOrdinary c) ↔ a.filter (· != ' ') = [] := by
  simp only [List.filter_eq_nil_iff, bne_iff_ne, ne_eq, not_not]
  constructor
  · intro h c hc
    exact (h c hc).2 (ha c hc)
  · intro h c hc
    have heq := h c hc
    subst heq
    exact ⟨by decide, fun _ => rfl⟩

private theorem isOrdinary_iff_of_keyword (hw : LetterCase.isKeyword currentTime w = true) :
    (∀ c ∈ w, IsOrdinary c) ↔ dottedI ∉ w := by
  have hvisible : ∀ c ∈ w, Blank.isBlank c = false := isBlank_of_isKeyword (by decide) hw
  constructor
  · intro h hmem
    exact (h dottedI hmem).1 rfl
  · intro hnot c hc
    refine ⟨fun heq => hnot (heq ▸ hc), fun hblank => ?_⟩
    rw [hvisible c hc] at hblank
    cases hblank

/-- A request is written as the plain keyword just if it was made without the dotted capital I and
with no other white space than blanks. -/
private theorem isTimeKeyword_normalTime_iff {s : List Char} (h : IsTimeRequest s) :
    IsTimeKeyword (Default.normalTime s) ↔ ∀ c ∈ s, IsOrdinary c := by
  cases h with
  | plain hw => rw [normalTime_plain hw, isTimeKeyword_upper_iff hw, isOrdinary_iff_of_keyword hw]
  | @precise w a b d hw ha hb hlow hhigh =>
    have hd := isDigit_of_bounds hlow hhigh
    have hdigit : IsOrdinary d := by
      refine ⟨?_, fun hblank => ?_⟩
      · rintro rfl
        exact absurd hd (by decide)
      · rw [isBlank_of_class (p := Char.isDigit) (by decide) hd] at hblank
        cases hblank
    have hopen : IsOrdinary '(' := ⟨by decide, fun h => absurd h (by decide)⟩
    have hclose : IsOrdinary ')' := ⟨by decide, fun h => absurd h (by decide)⟩
    rw [normalTime_precise hw ha hb hd, isTimeKeyword_precise_iff hw hlow hhigh,
      ← isOrdinary_iff_of_blank ha, ← isOrdinary_iff_of_blank hb, ← isOrdinary_iff_of_keyword hw]
    simp [or_imp, forall_and, hdigit, hopen, hclose]

/-! ## Defaults -/

private theorem ofText_of_request {v : String} (h : IsTimeRequest (Blank.trim v.toList)) :
    Default.ofText v = .ok (.words (String.ofList (Default.normalTime (Blank.trim v.toList)))) := by
  rw [Default.ofText]
  exact if_pos (isCurrentTime_iff.mpr h)

private theorem ofText_of_other {v : String} (h : ¬ IsTimeRequest (Blank.trim v.toList)) :
    Default.ofText v = Fragment.ofText v := by
  rw [Default.ofText]
  exact if_neg fun hrequest => h (isCurrentTime_iff.mp hrequest)

private theorem read?_normalTime {s : List Char} (h : IsTimeRequest s) :
    read? true (Default.normalTime s) = none := by
  obtain ⟨t, p, hnormal, ht, _⟩ := exists_normalTime (isCurrentTime_iff.mpr h)
  have hletter : ∀ t ∈ spellings currentTime, ∃ r, t = 'C' :: r := by
    intro t ht
    have hhead : ∀ t ∈ spellings currentTime, t.head? = some 'C' := by decide
    exact ⟨t.tail, (List.cons_head?_tail (hhead t ht)).symm⟩
  obtain ⟨r, rfl⟩ := hletter t ht
  rw [hnormal]
  rfl

/-- A text that is accepted for a default is written as the keyword for the current time or as a
literal of itself, unless it asks for the current time with the dotted capital I or with other white
space than blanks. -/
theorem keyword_or_literal_iff {v : String} {f : Fragment}
    (h : Default.ofValue (.text v) = .ok f) :
    (IsTimeKeyword f.chars ∨ read? true f.chars = some (v.toList, [])) ↔
      (IsTimeRequest (Blank.trim v.toList) → ∀ c ∈ Blank.trim v.toList, IsOrdinary c) := by
  have hf : Default.ofText v = .ok f := h
  by_cases hrequest : IsTimeRequest (Blank.trim v.toList)
  · rw [ofText_of_request hrequest] at hf
    cases hf
    rw [Fragment.chars, String.toList_ofList, read?_normalTime hrequest,
      isTimeKeyword_normalTime_iff hrequest]
    simp [hrequest]
  · rw [ofText_of_other hrequest] at hf
    obtain ⟨_, rfl⟩ := ofText_ok_iff.mp hf
    have hbehind : ([] : List Char).head? ≠ some '\'' := by decide
    have hread := read?_quoteLiteral true v.toList hbehind
    rw [List.append_nil, seen_true] at hread
    exact iff_of_true (.inr hread) fun h => absurd h hrequest

/-- A request with a dotless i, blanks in the parentheses and white space around it. -/
def spaced : String := "\tcurrent_t\u0131mestamp( 3 )\n"

theorem keyword_or_literal_iff_spaced :
    ∃ f, Default.ofValue (.text spaced) = .ok f ∧ f.chars = "CURRENT_TIMESTAMP(3)".toList ∧
      (IsTimeKeyword f.chars ∨ read? true f.chars = some (spaced.toList, [])) := by
  have hordinary : ∀ c ∈ Blank.trim spaced.toList, IsOrdinary c := by
    have hall : (Blank.trim spaced.toList).all (fun c => decide (IsOrdinary c)) = true := by decide
    simpa using hall
  have hok : Default.ofValue (.text spaced) = .ok (.words "CURRENT_TIMESTAMP(3)") := by rfl
  exact ⟨_, hok, by rfl, (keyword_or_literal_iff hok).mpr fun _ => hordinary⟩

/-- A tabulator in the parentheses of a request stays in the text, which is not quoted. -/
theorem not_keyword_or_literal_tabbed :
    ∃ f, Default.ofValue (.text "current_timestamp(\t3)") = .ok f ∧
      f.chars = "CURRENT_TIMESTAMP(\t3)".toList ∧
      ¬ (IsTimeKeyword f.chars ∨
        read? true f.chars = some ("current_timestamp(\t3)".toList, [])) := by
  have hok : Default.ofValue (.text "current_timestamp(\t3)") =
      .ok (.words "CURRENT_TIMESTAMP(\t3)") := by rfl
  have hrequest : IsTimeRequest "current_timestamp(\t3)".toList :=
    isCurrentTime_iff.mp (by decide)
  have hnormal : Default.normalTime "current_timestamp(\t3)".toList =
      "CURRENT_TIMESTAMP(\t3)".toList := by decide
  refine ⟨_, hok, by rfl, ?_⟩
  have htabulator : ¬ IsOrdinary '\t' := by decide
  rw [Fragment.chars, ← hnormal, isTimeKeyword_normalTime_iff hrequest, read?_normalTime hrequest]
  rintro (hordinary | hread)
  · exact htabulator (hordinary '\t' (by decide))
  · cases hread

end QueryGateway.Proofs.Sql.Defaults
