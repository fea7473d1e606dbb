import Mathlib.Data.List.Sections
import QueryGateway.Proofs.Text.Blank
import QueryGateway.Sql.Column

/-!
How column types and requests for the current time are spelled once they are read: keywords in one
of few spellings, sizes in decimal digits, and listed values without quotes.
-/

set_option autoImplicit false
set_option relaxedAutoImplicit false

namespace QueryGateway.Proofs.Sql.Spelling

open QueryGateway.Sql
open QueryGateway.Text
open QueryGateway.Proofs.Text.Blank

/-! ## Keywords -/

/-- Keywords are texts of such characters. -/
def isAscii (s : List Char) : Bool := s.all fun c => decide (c.toNat < 128)

theorem lt_of_isAscii {s : List Char} (h : isAscii s = true) : ∀ c ∈ s, c.toNat < 128 :=
  fun c hc => of_decide_eq_true (List.all_eq_true.mp h c hc)

/-- The capitals that a keyword of small letters may show for one of them: the dotted capital I and
the kelvin sign count as an i and a k, and stay as they are. -/
def capitalsOf (c : Char) : List Char :=
  if c = 'i' then ['I', Char.ofNat 0x130]
  else if c = 'k' then ['K', Char.ofNat 0x212a]
  else [c.toUpper]

def spellings (keyword : String) : List (List Char) := (keyword.toList.map capitalsOf).sections

private theorem upperOf_of_fold {c d : Char} (h : LetterCase.fold c = d) (hd : d.toNat < 128) :
    ∃ e ∈ capitalsOf d, LetterCase.upperOf c = [e] := by
  have hascii : ∀ n < 128, (Char.ofNat n).toUpper ∈ capitalsOf (Char.ofNat n).toLower := by decide
  subst h
  unfold LetterCase.fold at hd ⊢
  split
  · rename_i hc
    have hmem := hascii c.toNat hc
    rw [Char.ofNat_toNat] at hmem
    exact ⟨_, hmem, by rw [LetterCase.upperOf, if_pos hc]⟩
  · rename_i hc
    rw [if_neg hc] at hd
    have hchar : ∀ {n : Nat}, c.toNat = n → c = Char.ofNat n := by
      rintro n rfl
      exact (Char.ofNat_toNat c).symm
    split
    · rename_i hi
      rcases Bool.or_eq_true_iff.mp hi with hi | hi
      · rw [hchar (of_decide_eq_true hi)]
        exact ⟨Char.ofNat 0x130, by decide, by decide⟩
      · rw [hchar (of_decide_eq_true hi)]
        exact ⟨'I', by decide, by decide⟩
    · split
      · rename_i hs
        rw [hchar hs]
        exact ⟨'S', by decide, by decide⟩
      · split
        · rename_i hk
          rw [hchar hk]
          exact ⟨Char.ofNat 0x212a, by decide, by decide⟩
        · rename_i hi hs hk
          rw [if_neg hi, if_neg hs, if_neg hk] at hd
          exact absurd hd hc

theorem map_fold_of_isKeyword {keyword : String} {w : List Char}
    (h : LetterCase.isKeyword keyword w = true) : w.map LetterCase.fold = keyword.toList :=
  beq_iff_eq.mp h

theorem upper_mem_spellings {keyword : String} {w : List Char}
    (hascii : isAscii keyword.toList = true) (h : LetterCase.isKeyword keyword w = true) :
    LetterCase.upper w ∈ spellings keyword := by
  have hmap := map_fold_of_isKeyword h
  rw [spellings, List.mem_sections, ← hmap]
  have hlow := lt_of_isAscii hascii
  rw [← hmap] at hlow
  clear h hascii hmap
  induction w with
  | nil => exact .nil
  | cons c w ih =>
    obtain ⟨hc, hw⟩ := List.forall_mem_cons.mp hlow
    obtain ⟨e, he, hupper⟩ := upperOf_of_fold rfl hc
    rw [LetterCase.upper, List.flatMap_cons, hupper]
    exact .cons he (ih hw)

theorem isBlank_of_isKeyword {keyword : String}
    (hkeyword : blankCodes.all (fun n =>
      !keyword.toList.contains (LetterCase.fold (Char.ofNat n))) = true)
    {w : List Char} (h : LetterCase.isKeyword keyword w = true) :
    ∀ c ∈ w, Blank.isBlank c = false := by
  intro c hc
  have hletter : LetterCase.fold c ∈ keyword.toList :=
    map_fold_of_isKeyword h ▸ List.mem_map_of_mem hc
  exact isBlank_of_class (p := fun c => keyword.toList.contains (LetterCase.fold c)) hkeyword
    (List.contains_iff_mem.mpr hletter)

/-! ## Column types -/

/-- A column type as reading one gives it. -/
inductive Spelled : ColumnType → Prop
  | plain {base : String} {size modifiers : List (List Char)} : base ∈ ColumnType.plainBases →
      (∀ n ∈ size, n ≠ [] ∧ ∀ c ∈ n, Digit.isDecimal c = true) →
      (∀ m ∈ modifiers, m ∈ spellings "unsigned" ∨ m ∈ spellings "zerofill") →
      Spelled (.plain base size modifiers)
  | choice {base : List Char} {values : List (List Char)} :
      base ∈ spellings "enum" ∨ base ∈ spellings "set" →
      (∀ v ∈ values, ∀ c ∈ v, c ≠ '\'' ∧ c ≠ '\\') → Spelled (.choice base values)

theorem decimal_of_sizeNumber? {s n : List Char} (h : ColumnType.sizeNumber? s = some n) :
    n ≠ [] ∧ ∀ c ∈ n, Digit.isDecimal c = true := by
  simp only [ColumnType.sizeNumber?] at h
  split at h
  · rename_i hall
    cases h
    rw [Bool.and_eq_true, List.all_eq_true] at hall
    exact ⟨by simpa using hall.1, hall.2⟩
  · cases h

private theorem decimal_of_sizeNumbers? {s : List Char} {size : List (List Char)}
    (h : ColumnType.sizeNumbers? s = some size) :
    ∀ n ∈ size, n ≠ [] ∧ ∀ c ∈ n, Digit.isDecimal c = true := by
  unfold ColumnType.sizeNumbers? at h
  split at h
  · obtain ⟨n, hn, rfl⟩ := Option.map_eq_some_iff.mp h
    exact List.forall_mem_singleton.mpr (decimal_of_sizeNumber? hn)
  · obtain ⟨n, hn, h⟩ := Option.bind_eq_some_iff.mp h
    obtain ⟨m, hm, rfl⟩ := Option.map_eq_some_iff.mp h
    exact List.forall_mem_cons.mpr ⟨decimal_of_sizeNumber? hn,
      List.forall_mem_singleton.mpr (decimal_of_sizeNumber? hm)⟩
  · cases h

theorem decimal_of_size? {s : List Char} {p : List (List Char) × List Char}
    (h : ColumnType.size? s = some p) :
    ∀ n ∈ p.1, n ≠ [] ∧ ∀ c ∈ n, Digit.isDecimal c = true := by
  unfold ColumnType.size? at h
  split at h
  · obtain ⟨cut, _, h⟩ := Option.bind_eq_some_iff.mp h
    obtain ⟨size, hsize, rfl⟩ := Option.map_eq_some_iff.mp h
    exact decimal_of_sizeNumbers? hsize
  · cases h
    nofun

theorem spelled_of_modifiers? {s : List Char} {modifiers : List (List Char)}
    (h : ColumnType.modifiers? s = some modifiers) :
    ∀ m ∈ modifiers, m ∈ spellings "unsigned" ∨ m ∈ spellings "zerofill" := by
  simp only [ColumnType.modifiers?, Option.ite_none_right_eq_some, Bool.and_eq_true,
    List.all_eq_true, Option.some.injEq] at h
  obtain ⟨⟨_, hall⟩, rfl⟩ := h
  intro m hm
  obtain ⟨w, hw, rfl⟩ := List.mem_map.mp hm
  rcases Bool.or_eq_true_iff.mp (hall w hw) with hkeyword | hkeyword
  · exact .inl (upper_mem_spellings (by decide) hkeyword)
  · exact .inr (upper_mem_spellings (by decide) hkeyword)

/-! ## The current time -/

/-- A precision as it is written: nothing, or an ASCII digit in parentheses with white space around
it. -/
def IsPrecision (s : List Char) : Prop :=
  s = [] ∨ ∃ a d b, s = '(' :: (a ++ d :: b) ++ [')'] ∧ (∀ c ∈ a ++ b, Blank.isBlank c = true) ∧
    d.isDigit = true

theorem isPrecision_iff {s : List Char} :
    Default.isPrecision s = true ↔ s = [] ∨ ∃ a d b, s = '(' :: (a ++ d :: b) ++ [')'] ∧
      (∀ c ∈ a, Blank.isBlank c = true) ∧ (∀ c ∈ b, Blank.isBlank c = true) ∧
        '0' ≤ d ∧ d ≤ '6' := by
  constructor
  · intro h
    unfold Default.isPrecision at h
    split at h
    · exact .inl rfl
    · rename_i r
      obtain ⟨hlast, hdigit⟩ := Bool.and_eq_true_iff.mp h
      obtain ⟨front, rfl⟩ := List.getLast?_eq_some_iff.mp (beq_iff_eq.mp hlast)
      rw [List.dropLast_concat] at hdigit
      obtain ⟨a, b, hfront, ha, hb⟩ := exists_trim front
      split at hdigit
      · rename_i d hd
        rw [hd, List.append_assoc] at hfront
        obtain ⟨hlow, hhigh⟩ := Bool.and_eq_true_iff.mp hdigit
        exact .inr ⟨a, d, b, by rw [hfront]; rfl, ha, hb, of_decide_eq_true hlow,
          of_decide_eq_true hhigh⟩
      · cases hdigit
    · cases h
  · rintro (rfl | ⟨a, d, b, rfl, ha, hb, hlow, hhigh⟩)
    · rfl
    · have hdigit : (decide ('0' ≤ d) && decide (d ≤ '6')) = true := by simp [hlow, hhigh]
      have hvisible : Blank.isBlank d = false :=
        isBlank_of_class (p := fun c => decide ('0' ≤ c) && decide (c ≤ '6')) (by decide) hdigit
      have htrim : Blank.trim (a ++ d :: b) = [d] := by
        have hends : ∀ c ∈ some d, Blank.isBlank c = false := by
          rintro _ ⟨⟩
          exact hvisible
        have htrim := trim_eq (t := [d]) ha hb hends hends
        rwa [List.append_assoc] at htrim
      rw [List.cons_append, Default.isPrecision, List.getLast?_concat, List.dropLast_concat, htrim]
      exact hdigit

private theorem precision_of_isPrecision {s : List Char} (h : Default.isPrecision s = true) :
    IsPrecision s := by
  rcases isPrecision_iff.mp h with rfl | ⟨a, d, b, rfl, ha, hb, hlow, hhigh⟩
  · exact .inl rfl
  · have hdigit : d.isDigit = true := Bool.and_eq_true_iff.mpr
      ⟨decide_eq_true hlow, decide_eq_true (Char.le_trans hhigh (by decide))⟩
    exact .inr ⟨a, d, b, rfl, List.forall_mem_append.mpr ⟨ha, hb⟩, hdigit⟩

theorem upperOf_eq_self {p : Char → Bool}
    (hascii : ∀ n < 128, p (Char.ofNat n) = true → (Char.ofNat n).toUpper = Char.ofNat n)
    (hlatin : ∀ q ∈ LetterCase.latinCapitals, p (Char.ofNat q.1) = false) {c : Char}
    (hc : p c = true) : LetterCase.upperOf c = [c] := by
  unfold LetterCase.upperOf
  split
  · rename_i hlow
    have hupper := hascii c.toNat hlow
    rw [Char.ofNat_toNat] at hupper
    rw [hupper hc]
  · cases hfind : LetterCase.latinCapitals.find? fun q => q.1 == c.toNat with
    | none => rfl
    | some q =>
      have hq := hlatin q (List.mem_of_find?_eq_some hfind)
      have hcode : q.1 = c.toNat := by simpa using List.find?_some hfind
      rw [hcode, Char.ofNat_toNat, hc] at hq
      cases hq

theorem eq_of_mem_upperOf {c d : Char}
    (hascii : ∀ n < 128, d = (Char.ofNat n).toUpper → Char.ofNat n = d)
    (hlatin : ∀ q ∈ LetterCase.latinCapitals, d ∉ q.2) (h : d ∈ LetterCase.upperOf c) : c = d := by
  unfold LetterCase.upperOf at h
  split at h
  · rename_i hc
    have hself := hascii c.toNat hc
    rw [Char.ofNat_toNat] at hself
    exact hself (List.mem_singleton.mp h)
  · cases hfind : LetterCase.latinCapitals.find? fun p => p.1 == c.toNat with
    | none =>
      rw [hfind] at h
      exact (List.mem_singleton.mp h).symm
    | some q =>
      rw [hfind] at h
      exact absurd h (hlatin q (List.mem_of_find?_eq_some hfind))

theorem upper_eq_self {s : List Char} (h : ∀ c ∈ s, LetterCase.upperOf c = [c]) :
    LetterCase.upper s = s := by
  induction s with
  | nil => rfl
  | cons c s ih =>
    obtain ⟨hc, hs⟩ := List.forall_mem_cons.mp h
    have hrest := ih hs
    rw [LetterCase.upper] at hrest
    rw [LetterCase.upper, List.flatMap_cons, hc, hrest]
    rfl

theorem filter_upper_precision {a b : List Char} {d : Char}
    (ha : ∀ c ∈ a, Blank.isBlank c = true) (hb : ∀ c ∈ b, Blank.isBlank c = true)
    (hd : d.isDigit = true) :
    (LetterCase.upper ('(' :: (a ++ d :: b) ++ [')'])).filter (· != ' ') =
      '(' :: (a.filter (· != ' ') ++ d :: b.filter (· != ' ')) ++ [')'] := by
  have hofBlank : ∀ {c : Char}, Blank.isBlank c = true → LetterCase.upperOf c = [c] :=
    upperOf_eq_self (p := Blank.isBlank) (by decide) (by decide)
  have hofDigit : LetterCase.upperOf d = [d] :=
    upperOf_eq_self (p := Char.isDigit) (by decide) (by decide) hd
  have hself : ∀ c ∈ '(' :: (a ++ d :: b) ++ [')'], LetterCase.upperOf c = [c] := by
    simp only [List.cons_append, List.append_assoc, List.mem_cons, List.mem_append,
      List.not_mem_nil, or_false]
    rintro c (rfl | hc | rfl | hc | rfl)
    · decide
    · exact hofBlank (ha c hc)
    · exact hofDigit
    · exact hofBlank (hb c hc)
    · decide
  have hne : d ≠ ' ' := by
    rintro rfl
    cases hd
  rw [upper_eq_self hself]
  simp [hne]

theorem IsPrecision.normal {s : List Char} (h : IsPrecision s) :
    IsPrecision ((LetterCase.upper s).filter (· != ' ')) := by
  rcases h with rfl | ⟨a, d, b, rfl, hblank, hd⟩
  · exact .inl rfl
  · obtain ⟨ha, hb⟩ := List.forall_mem_append.mp hblank
    refine .inr ⟨_, d, _, filter_upper_precision ha hb hd, ?_, hd⟩
    rw [← List.filter_append]
    exact fun c hc => hblank c (List.mem_filter.mp hc).1

theorem normalTime_append {w : List Char}
    (hw : LetterCase.isKeyword Default.currentTime w = true) (p : List Char) :
    Default.normalTime (w ++ p) = LetterCase.upper w ++ (LetterCase.upper p).filter (· != ' ') := by
  have hdense : ∀ t ∈ spellings Default.currentTime, t.filter (· != ' ') = t := by decide
  rw [Default.normalTime, LetterCase.upper, List.flatMap_append, List.filter_append]
  exact congrArg (· ++ _) (hdense _ (upper_mem_spellings (by decide) hw))

theorem exists_normalTime {s : List Char} (h : Default.isCurrentTime s = true) :
    ∃ w p, Default.normalTime s = w ++ p ∧ w ∈ spellings Default.currentTime ∧ IsPrecision p := by
  rw [Default.isCurrentTime, LetterCase.afterKeyword?] at h
  split at h
  · rename_i hkeyword
    have hnormal := normalTime_append hkeyword (s.drop Default.currentTime.length)
    rw [List.take_append_drop] at hnormal
    exact ⟨_, _, hnormal, upper_mem_spellings (by decide) hkeyword,
      (precision_of_isPrecision h).normal⟩
  · cases h

end QueryGateway.Proofs.Sql.Spelling
