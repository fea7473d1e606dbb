import QueryGateway.Proofs.Sql.FirstWord
import QueryGateway.Proofs.Sql.Lexical
import QueryGateway.Proofs.Sql.Patterns

/-!
What of a statement stands outside quotations and comments, and the keyword that it begins with, as
the server reads them. The screening has classes of characters of its own; those of the server are
narrower for white space and wider for words, so that a word of the server stands by itself to the
screening too.
-/

set_option autoImplicit false
set_option relaxedAutoImplicit false

namespace QueryGateway.Proofs.Sql.Outside

open QueryGateway.Sql.Screening (isOneOf hasWord hasStackedWrite)
open QueryGateway.Text
open QueryGateway.Text.Blank (isBlank)
open QueryGateway.Text.Runs (kindOf ofText)
open QueryGateway.Text.Word (isWord isAlphanumeric)
open QueryGateway.Proofs.Sql.FirstWord (isKeyword_of_toLower)
open QueryGateway.Proofs.Sql.Lexical
open QueryGateway.Proofs.Sql.Patterns
open QueryGateway.Proofs.Text.LetterCase (of_ascii toNat_lt_of_toLower)
open QueryGateway.Proofs.Text.Runs

/-! ## Parts -/

/-- Whether a character that is read in some mode stands outside quotations and comments. -/
def isOutside (m : Mode) (c : Char) : Bool :=
  match m with
  | .outside => true
  | .closing mark _ => c != mark
  | _ => false

variable {dashes : List Char → Bool}

/-- The parts of a text, read from some mode on, that begin outside quotations and comments. -/
def partsFrom (dashes : List Char → Bool) : Mode → List Char → List (List Char)
  | _, [] => []
  | m, c :: rest =>
    if isOutside m c then (c :: rest) :: partsFrom dashes (step dashes m c rest).1 rest
    else partsFrom dashes (step dashes m c rest).1 rest

/-- The parts of a text that begin outside quotations and comments. -/
def parts (dashes : List Char → Bool) (s : List Char) : List (List Char) :=
  partsFrom dashes .outside s

def opensComment (dashes : List Char → Bool) : List Char → Bool
  | [] => false
  | c :: rest => opensLine dashes c rest || opensBlock c rest

theorem opensComment_iff {s : List Char} :
    opensComment dashes s = true ↔
      ['#'] <+: s ∨ (['-', '-'] <+: s ∧ dashes (s.drop 2) = true) ∨ ['/', '*'] <+: s := by
  match s with
  | [] => simp [opensComment]
  | [c] => simp [opensComment, opensLine, opensBlock, @eq_comm Char _ c]
  | c :: d :: rest =>
    simp [opensComment, opensLine, opensBlock, @eq_comm Char _ c, @eq_comm Char _ d, and_assoc,
      or_assoc]

/-- Whether a statement ends with the first character of a text that stands outside. -/
def endsHere (s : List Char) : Bool := s.head? == some ';'

/-- What follows the first semicolon outside quotations and comments. -/
def behind? (dashes : List Char → Bool) (s : List Char) : Option (List Char) :=
  ((parts dashes s).find? endsHere).map List.tail

theorem suffix_of_mem_partsFrom {m : Mode} {s t : List Char} (h : t ∈ partsFrom dashes m s) :
    t <:+ s := by
  induction s generalizing m with
  | nil => cases h
  | cons c s ih =>
    rw [partsFrom] at h
    split at h
    · rcases List.mem_cons.mp h with rfl | h
      · exact List.suffix_rfl
      · exact (ih h).trans (List.suffix_cons c s)
    · exact (ih h).trans (List.suffix_cons c s)

theorem exists_of_behind?_eq {s r : List Char} (h : behind? dashes s = some r) :
    ∃ before, s = before ++ ';' :: r := by
  obtain ⟨t, hfind, rfl⟩ := Option.map_eq_some_iff.mp h
  have hhead : endsHere t = true := List.find?_some hfind
  obtain ⟨before, hs⟩ := suffix_of_mem_partsFrom (List.mem_of_find?_eq_some hfind)
  obtain ⟨rest, rfl⟩ := List.head?_eq_some_iff.mp (beq_iff_eq.mp hhead)
  exact ⟨before, hs.symm⟩

/-! ## Keywords -/

def isSpacing (c : Char) : Bool := c == ' ' || (9 ≤ c.toNat && c.toNat ≤ 13)

/-- What the bare words of the server are made of. -/
def isWordPart (c : Char) : Bool := c.isAlphanum || c == '_' || c == '$' || 128 ≤ c.toNat

/-- The word that a text begins with, behind characters that are passed over. -/
def leadingWord (gap : Char → Bool) (s : List Char) : List Char :=
  (s.dropWhile gap).takeWhile isWordPart

def behindWord (gap : Char → Bool) (s : List Char) : List Char :=
  (s.dropWhile gap).dropWhile isWordPart

/-- Whether a word is one of some keywords, in any case of its letters. -/
def spells (keywords : List String) (w : List Char) : Bool :=
  keywords.any fun k => w.map Char.toLower == k.toList

/-- Whether a text begins with one of some keywords, behind characters that are passed over. -/
def beginsWith (gap : Char → Bool) (keywords : List String) (s : List Char) : Bool :=
  spells keywords (leadingWord gap s)

/-- Keywords: words of small letters. -/
def AreKeywords (keywords : List String) : Prop :=
  ∀ k ∈ keywords, k.toList ≠ [] ∧ k.toList.all Char.isLower = true

instance (keywords : List String) : Decidable (AreKeywords keywords) :=
  inferInstanceAs (Decidable (∀ k ∈ keywords, _))

/-- A word of letters at the start of a text, behind characters that are passed over. -/
structure Leads (gap : Char → Bool) (front w after : List Char) : Prop where
  passed : ∀ c ∈ front, gap c = true
  nonempty : w ≠ []
  letters : ∀ c ∈ w, c.toLower.isLower = true
  ends : ∀ d ∈ after.head?, isWordPart d = false

theorem isBlank_of_isSpacing {c : Char} (h : isSpacing c = true) : isBlank c = true := by
  rcases Bool.or_eq_true_iff.mp h with hspace | hrange
  · rw [beq_iff_eq.mp hspace]
    decide
  · rw [isBlank, hrange]
    rfl

theorem kindOf_of_isSpacing {c : Char} (h : isSpacing c = true) : kindOf c = .blank := by
  rw [kindOf, if_pos (isBlank_of_isSpacing h)]

private theorem isWordPart_of_kindOf {c : Char} (h : kindOf c = .word) : isWordPart c = true := by
  have hword : isWord c = true := by
    unfold kindOf at h
    split_ifs at h with _ hword
    exact hword
  rw [isWord, Bool.or_eq_true, isAlphanumeric] at hword
  rw [isWordPart]
  rcases hword with hunderscore | halphanum
  · simp [hunderscore]
  · split_ifs at halphanum with hascii
    · simp [halphanum]
    · simp [Nat.le_of_not_lt hascii]

theorem toNat_lt_of_isLower {c : Char} (h : c.isLower = true) : c.toNat < 128 := by
  obtain ⟨_, hle⟩ := Bool.and_eq_true_iff.mp h
  exact Nat.lt_of_le_of_lt (UInt32.le_iff_toNat_le.mp (of_decide_eq_true hle)) (by decide)

private theorem kindOf_of_isLower {c : Char} (h : c.toLower.isLower = true) : kindOf c = .word := by
  have htable := of_ascii (p := fun c => !c.toLower.isLower || kindOf c == .word) (by decide)
    (toNat_lt_of_toLower (toNat_lt_of_isLower h))
  simpa [h] using htable

theorem isWordPart_of_isLower {c : Char} (h : c.toLower.isLower = true) : isWordPart c = true :=
  isWordPart_of_kindOf (kindOf_of_isLower h)

/-- White space of the server, and opening brackets. -/
def isOpening (c : Char) : Bool := isSpacing c || c == '('

theorem not_isWordPart_of_isOpening {c : Char} (h : isOpening c = true) : isWordPart c ≠ true := by
  have hascii : c.toNat < 128 := by
    simp only [isOpening, isSpacing, Bool.or_eq_true, beq_iff_eq, Bool.and_eq_true,
      decide_eq_true_eq] at h
    rcases h with (rfl | hrange) | rfl
    · decide
    · omega
    · decide
  have htable := of_ascii (p := fun c => !isOpening c || !isWordPart c) (by decide) hascii
  simpa [h] using htable

theorem not_isWordPart_of_isSpacing {c : Char} (h : isSpacing c = true) : isWordPart c ≠ true :=
  not_isWordPart_of_isOpening (by rw [isOpening, h, Bool.true_or])

section Leading

variable {gap : Char → Bool} {keywords : List String} {front w after s : List Char}

theorem beginsWith_iff_exists :
    beginsWith gap keywords s = true ↔
      ∃ k ∈ keywords, (leadingWord gap s).map Char.toLower = k.toList := by
  simp only [beginsWith, spells, List.any_eq_true, beq_iff_eq]

theorem letters_of_spells (hkeywords : AreKeywords keywords) (h : spells keywords w = true) :
    w ≠ [] ∧ ∀ c ∈ w, c.toLower.isLower = true := by
  obtain ⟨k, hk, heq⟩ := List.any_eq_true.mp h
  obtain ⟨hne, hall⟩ := hkeywords k hk
  rw [← beq_iff_eq.mp heq] at hne hall
  exact ⟨by simpa using hne, by simpa using hall⟩

theorem isOneOf_of_spells (hkeywords : AreKeywords keywords) (h : spells keywords w = true) :
    isOneOf keywords ⟨.word, w⟩ = true := by
  obtain ⟨k, hk, heq⟩ := List.any_eq_true.mp h
  have hascii : ∀ c ∈ k.toList, c.toNat < 128 :=
    fun c hc => toNat_lt_of_isLower (List.all_eq_true.mp (hkeywords k hk).2 c hc)
  exact List.any_eq_true.mpr ⟨k, hk, isKeyword_of_toLower hascii (beq_iff_eq.mp heq)⟩

theorem spells_of_isOneOf (hascii : ∀ c ∈ w, c.toNat < 128)
    (h : isOneOf keywords ⟨.word, w⟩ = true) : spells keywords w = true := by
  obtain ⟨k, hk, heq⟩ := List.any_eq_true.mp h
  have hfold : w.map LetterCase.fold = w.map Char.toLower :=
    List.map_congr_left fun c hc => if_pos (hascii c hc)
  rw [LetterCase.isKeyword, hfold] at heq
  exact List.any_eq_true.mpr ⟨k, hk, heq⟩

variable (hgap : ∀ {c}, gap c = true → isWordPart c ≠ true)
include hgap

theorem Leads.words_eq (h : Leads gap front w after) :
    leadingWord gap (front ++ (w ++ after)) = w ∧
      behindWord gap (front ++ (w ++ after)) = after := by
  have hword : ∀ c ∈ w, isWordPart c = true := fun c hc => isWordPart_of_isLower (h.letters c hc)
  have hstart : ∀ d ∈ (w ++ after).head?, gap d = false := by
    intro d hd
    rw [List.head?_append_of_ne_nil _ h.nonempty] at hd
    exact Bool.eq_false_iff.mpr fun hpassed => hgap hpassed (hword d (List.mem_of_head? hd))
  rw [leadingWord, behindWord, dropWhile_parted h.passed hstart]
  exact ⟨takeWhile_parted hword h.ends, dropWhile_parted hword h.ends⟩

theorem beginsWith_iff (hkeywords : AreKeywords keywords) :
    beginsWith gap keywords s = true ↔ ∃ front w after, s = front ++ (w ++ after) ∧
      Leads gap front w after ∧ spells keywords w = true := by
  constructor
  · intro h
    obtain ⟨hne, hletters⟩ := letters_of_spells hkeywords h
    refine ⟨s.takeWhile gap, leadingWord gap s, behindWord gap s, ?_, ?_, h⟩
    · rw [leadingWord, behindWord, List.takeWhile_append_dropWhile,
        List.takeWhile_append_dropWhile]
    · exact ⟨fun c hc => List.mem_takeWhile_imp hc, hne, hletters, head?_dropWhile⟩
  · rintro ⟨front, w, after, rfl, hleads, hspells⟩
    rwa [beginsWith, (hleads.words_eq hgap).1]

theorem Leads.stands (h : Leads gap front w after) (before : List Char)
    (hbefore : ∀ c ∈ before.getLast?, kindOf c ≠ .word) : Stands (before ++ front) w after where
  nonempty := h.nonempty
  word c hc := kindOf_of_isLower (h.letters c hc)
  left := ends_append hbefore fun c hc hkind => hgap (h.passed c hc) (isWordPart_of_kindOf hkind)
  right d hd hkind := by
    have hpart := isWordPart_of_kindOf hkind
    rw [h.ends d hd] at hpart
    cases hpart

/-- The screening finds a keyword that a text begins with, whatever stands before the text and does
not end in a word. -/
theorem hasWord_of_beginsWith (hkeywords : AreKeywords keywords)
    (h : beginsWith gap keywords s = true) (before : List Char)
    (hbefore : ∀ c ∈ before.getLast?, kindOf c ≠ .word) :
    hasWord keywords (before ++ s) = true := by
  obtain ⟨front, w, after, rfl, hleads, hspells⟩ := (beginsWith_iff hgap hkeywords).mp h
  exact hasWord_iff.mpr ⟨before ++ front, w, after, (List.append_assoc _ _ _).symm,
    hleads.stands hgap before hbefore, isOneOf_of_spells hkeywords hspells⟩

end Leading

theorem hasStackedWrite_of_beginsWith {before s : List Char}
    (h : beginsWith isSpacing stackedVerbs s = true) :
    hasStackedWrite (ofText (before ++ ';' :: s)) = true := by
  have hkeywords : AreKeywords stackedVerbs := by decide
  obtain ⟨front, w, after, rfl, hleads, hspells⟩ :=
    (beginsWith_iff not_isWordPart_of_isSpacing hkeywords).mp h
  exact hasStackedWrite_iff.mpr ⟨before, front, w, after, rfl,
    fun c hc => kindOf_of_isSpacing (hleads.passed c hc),
    hleads.stands not_isWordPart_of_isSpacing _ (ends_semicolon before),
    isOneOf_of_spells hkeywords hspells⟩

end QueryGateway.Proofs.Sql.Outside
