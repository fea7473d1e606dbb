import QueryGateway.Proofs.Sql.Spelling
import QueryGateway.Proofs.Text.Split

/-!
Texts without their white space and in capitals, as far as nothing is quoted: what is left of a text
when neither of the two counts.
-/

set_option autoImplicit false
set_option relaxedAutoImplicit false

namespace QueryGateway.Proofs.Sql.Condensed

open QueryGateway.Sql
open QueryGateway.Text
open QueryGateway.Text.Blank (isBlank)
open QueryGateway.Proofs.Sql.Spelling
open QueryGateway.Proofs.Text.Blank

/-! ## Condensed texts -/

/-- A text in capitals and without white space. -/
def condense (s : List Char) : List Char := LetterCase.upper (s.filter fun c => !isBlank c)

/-- What follows in a text, in capitals and without white space outside single quotes. -/
def condensedFrom (quoted : Bool) : List Char → List Char
  | [] => []
  | c :: r =>
    if c = '\'' then c :: condensedFrom (!quoted) r
    else (if quoted then [c] else condense [c]) ++ condensedFrom quoted r

/-- A text in capitals and without white space outside single quotes. Two texts that only differ in
letter case and white space there have the same one. -/
def condensed (s : List Char) : List Char := condensedFrom false s

variable {a r s v : List Char}

theorem condense_append (a b : List Char) : condense (a ++ b) = condense a ++ condense b := by
  rw [condense, List.filter_append, LetterCase.upper, List.flatMap_append]
  rfl

private theorem condense_blanks (h : ∀ c ∈ a, isBlank c = true) : condense a = [] := by
  have hnone : a.filter (fun c => !isBlank c) = [] := List.filter_eq_nil_iff.mpr (by simpa using h)
  rw [condense, hnone]
  rfl

theorem condense_visible (h : ∀ c ∈ a, isBlank c = false) : condense a = LetterCase.upper a := by
  have hall : a.filter (fun c => !isBlank c) = a :=
    List.filter_eq_self.mpr fun c hc => by simp [h c hc]
  rw [condense, hall]

theorem condense_eq_self (h : ∀ c ∈ a, isBlank c = false ∧ LetterCase.upperOf c = [c]) :
    condense a = a := by
  rw [condense_visible fun c hc => (h c hc).1, upper_eq_self fun c hc => (h c hc).2]

theorem condense_trim (s : List Char) : condense (Blank.trim s) = condense s := by
  obtain ⟨a, b, hs, ha, hb⟩ := exists_trim s
  conv_rhs => rw [hs, condense_append, condense_append, condense_blanks ha, condense_blanks hb]
  rw [List.nil_append, List.append_nil]

theorem condense_dropBlanks (s : List Char) : condense (Blank.dropBlanks s) = condense s := by
  have hs : s.takeWhile isBlank ++ Blank.dropBlanks s = s := List.takeWhile_append_dropWhile
  have hblanks : condense (s.takeWhile isBlank) = [] :=
    condense_blanks (List.all_eq_true.mp List.all_takeWhile)
  conv_rhs => rw [← hs, condense_append, hblanks, List.nil_append]

theorem condense_words (s : List Char) :
    ((Blank.words s).map LetterCase.upper).flatten = condense s := by
  rw [condense, ← flatten_words]
  induction Blank.words s with
  | nil => rfl
  | cons w ws ih =>
    rw [List.map_cons, List.flatten_cons, ih, List.flatten_cons]
    exact List.flatMap_append.symm

theorem condense_joinWith (ps : List (List Char)) :
    condense (Split.joinWith [','] ps) = Split.joinWith [','] (ps.map condense) := by
  induction ps with
  | nil => rfl
  | cons p ps ih =>
    cases ps with
    | nil => rfl
    | cons q ps =>
      have hcomma : condense [','] = [','] := by decide
      rw [Split.joinWith, condense_append, condense_append, hcomma, ih]
      rfl

theorem quote_mem_condense_iff : '\'' ∈ condense s ↔ '\'' ∈ s := by
  constructor
  · intro h
    obtain ⟨c, hc, hquote⟩ := List.mem_flatMap.mp h
    have heq : c = '\'' := eq_of_mem_upperOf (by decide) (by decide) hquote
    exact heq ▸ (List.mem_filter.mp hc).1
  · intro h
    exact List.mem_flatMap.mpr ⟨'\'', List.mem_filter.mpr ⟨h, by decide⟩, by decide⟩

theorem condensed_append (ha : '\'' ∉ a) (r : List Char) :
    condensed (a ++ r) = condense a ++ condensed r := by
  induction a with
  | nil => rfl
  | cons c a ih =>
    obtain ⟨hc, ha⟩ : '\'' ≠ c ∧ '\'' ∉ a := by simpa using ha
    have hsplit : condense (c :: a) = condense [c] ++ condense a := condense_append [c] a
    have hrest := ih ha
    rw [condensed] at hrest
    rw [List.cons_append, condensed, condensedFrom, if_neg (Ne.symm hc), hrest, hsplit,
      List.append_assoc]
    rfl

theorem condensed_blanks (ha : ∀ c ∈ a, isBlank c = true) (r : List Char) :
    condensed (a ++ r) = condensed r := by
  have hquote : '\'' ∉ a := fun hmem => absurd (ha _ hmem) (by decide)
  rw [condensed_append hquote, condense_blanks ha, List.nil_append]

theorem condensed_mark {c : Char} (hc : condense [c] = [c]) (hne : '\'' ≠ c) (r : List Char) :
    condensed (c :: r) = c :: condensed r := by
  have hmark := condensed_append (a := [c]) (by simpa using hne) r
  rwa [hc] at hmark

theorem condensed_eq_condense (h : '\'' ∉ s) : condensed s = condense s := by
  have hwhole := condensed_append h []
  rwa [List.append_nil, condensed, condensed, condensedFrom, List.append_nil] at hwhole

theorem condensed_quoted (hv : '\'' ∉ v) (r : List Char) :
    condensed (ColumnType.quotedValue v ++ r) = ColumnType.quotedValue v ++ condensed r := by
  have hinner : condensedFrom true (v ++ '\'' :: r) = v ++ '\'' :: condensedFrom false r := by
    induction v with
    | nil => simp [condensedFrom]
    | cons c v ih =>
      obtain ⟨hc, hv⟩ : '\'' ≠ c ∧ '\'' ∉ v := by simpa using hv
      rw [List.cons_append, condensedFrom, if_neg (Ne.symm hc), ih hv]
      rfl
  have hparts : ColumnType.quotedValue v ++ r = '\'' :: (v ++ '\'' :: r) := by
    simp [ColumnType.quotedValue]
  rw [hparts, condensed, condensedFrom, if_pos rfl, Bool.not_false, hinner]
  simp [ColumnType.quotedValue, condensed]

end QueryGateway.Proofs.Sql.Condensed
