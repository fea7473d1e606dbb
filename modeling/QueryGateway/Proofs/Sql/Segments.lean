import QueryGateway.Proofs.Sql.Outside
import QueryGateway.Proofs.Sql.TypeForms
import QueryGateway.Proofs.Sql.Words

/-!
Statement text by segments: what the server finds between white space that stands neither in
quotations nor in parentheses. A keyword, a number, a request for the current time and each part of
a column type is a segment of its own, and segments with a blank in front of each are found again.
-/

set_option autoImplicit false
set_option relaxedAutoImplicit false

namespace QueryGateway.Proofs.Sql.Segments

open QueryGateway.Sql
open QueryGateway.Sql.ColumnType
open QueryGateway.Text
open QueryGateway.Text.Blank (isBlank)
open QueryGateway.Proofs.Sql.Lexical
open QueryGateway.Proofs.Sql.Outside
open QueryGateway.Proofs.Sql.Spelling
open QueryGateway.Proofs.Sql.TypeForms
open QueryGateway.Proofs.Sql.Words
open QueryGateway.Proofs.Text.Blank
open QueryGateway.Proofs.Text.Split

/-! ## Cutting -/

/-- Whether a piece is white space of the server. -/
def isGap : Piece → Bool
  | .bare c => isSpacing c
  | _ => false

/-- How many parentheses are open behind a piece. -/
def depthBehind (depth : Nat) : Piece → Nat
  | .bare '(' => depth + 1
  | .bare ')' => depth - 1
  | _ => depth

/-- Pieces cut at white space, some parentheses being open. -/
def cut (depth : Nat) : List Piece → List (List Piece)
  | [] => [[]]
  | p :: ps =>
    if depth = 0 && isGap p then [] :: cut 0 ps
    else (cut (depthBehind depth p) ps).modifyHead (p :: ·)

def segments (ps : List Piece) : List (List Piece) := (cut 0 ps).filter fun s => !s.isEmpty

def spaced (segs : List (List Piece)) : List Piece := segs.flatMap (.bare ' ' :: ·)

/-- Pieces that no white space parts and that leave no parenthesis open, whatever follows them. -/
def Joined (ps : List Piece) : Prop :=
  ∀ rest, cut 0 (ps ++ rest) = (cut 0 rest).modifyHead (ps ++ ·)

/-- Pieces that are found again as one segment. -/
structure IsSegment (s : List Piece) : Prop where
  nonempty : s ≠ []
  joined : Joined s

def isFlat : Piece → Bool
  | .bare c => c != '(' && c != ')'
  | _ => true

/-- Whether a piece is neither white space nor a parenthesis. -/
def isSolid (p : Piece) : Bool := !isGap p && isFlat p

variable {ps qs s : List Piece} {ss : List (List Piece)}

private theorem depthBehind_of_isFlat {p : Piece} (h : isFlat p = true) (depth : Nat) :
    depthBehind depth p = depth := by
  unfold depthBehind
  split
  · cases h
  · cases h
  · rfl

private theorem cut_inner {depth : Nat}
    (h : ∀ p ∈ ps, isFlat p = true ∧ (depth = 0 → isGap p = false))
    (rest : List Piece) : cut depth (ps ++ rest) = (cut depth rest).modifyHead (ps ++ ·) := by
  induction ps with
  | nil =>
    have hself : ∀ l : List (List Piece), l.modifyHead (fun t => [] ++ t) = l :=
      fun l => by cases l <;> rfl
    exact (hself _).symm
  | cons p ps ih =>
    obtain ⟨⟨hflat, hgap⟩, hps⟩ := List.forall_mem_cons.mp h
    have hnot : ¬ (decide (depth = 0) && isGap p) = true := by
      rw [Bool.and_eq_true, decide_eq_true_eq]
      rintro ⟨hzero, htrue⟩
      rw [hgap hzero] at htrue
      cases htrue
    rw [List.cons_append, cut, if_neg hnot, depthBehind_of_isFlat hflat, ih hps,
      List.modifyHead_modifyHead]
    rfl

private theorem joined_of_isSolid (h : ∀ p ∈ ps, isSolid p = true) : Joined ps := by
  refine cut_inner fun p hp => ?_
  obtain ⟨hgap, hflat⟩ := Bool.and_eq_true_iff.mp (h p hp)
  exact ⟨hflat, fun _ => by simpa using hgap⟩

theorem Joined.append (hps : Joined ps) (hqs : Joined qs) : Joined (ps ++ qs) := by
  intro rest
  rw [List.append_assoc, hps, hqs, List.modifyHead_modifyHead]
  simp [Function.comp_def]

theorem IsSegment.append (hs : IsSegment s) (hqs : Joined qs) : IsSegment (s ++ qs) :=
  ⟨List.append_ne_nil_of_left_ne_nil hs.nonempty qs, hs.joined.append hqs⟩

private theorem joined_parenthesized (h : ∀ p ∈ ps, isFlat p = true) :
    Joined (.bare '(' :: (ps ++ [.bare ')'])) := by
  intro rest
  have hopen : ∀ r, cut 0 (.bare '(' :: r) = (cut 1 r).modifyHead (.bare '(' :: ·) := fun _ => rfl
  have hinner : ∀ r, cut 1 (ps ++ r) = (cut 1 r).modifyHead (ps ++ ·) :=
    cut_inner fun p hp => ⟨h p hp, nofun⟩
  have hclose : cut 1 (.bare ')' :: rest) = (cut 0 rest).modifyHead (.bare ')' :: ·) := rfl
  rw [List.cons_append, List.append_assoc, hopen, hinner,
    List.singleton_append, hclose, List.modifyHead_modifyHead, List.modifyHead_modifyHead]
  simp [Function.comp_def]

theorem spaced_append (ss ts : List (List Piece)) : spaced (ss ++ ts) = spaced ss ++ spaced ts :=
  List.flatMap_append

private theorem cut_spaced (h : ∀ s ∈ ss, Joined s) : cut 0 (spaced ss) = [] :: ss := by
  induction ss with
  | nil => rfl
  | cons s ss ih =>
    obtain ⟨hs, hss⟩ := List.forall_mem_cons.mp h
    have hblank : cut 0 (spaced (s :: ss)) = [] :: cut 0 (s ++ spaced ss) := rfl
    rw [hblank, hs, ih hss]
    simp

theorem segments_spaced (hs : IsSegment s) (hss : ∀ t ∈ ss, IsSegment t) :
    segments (s ++ spaced ss) = s :: ss := by
  have hcut : cut 0 (s ++ spaced ss) = s :: ss := by
    rw [hs.joined, cut_spaced fun t ht => (hss t ht).joined]
    simp
  have hall : ∀ t ∈ s :: ss, (!t.isEmpty) = true :=
    List.forall_mem_cons.mpr ⟨by simp [hs.nonempty], fun t ht => by simp [(hss t ht).nonempty]⟩
  rw [segments, hcut, List.filter_eq_self.mpr hall]

/-! ## Bare text -/

def bare (s : List Char) : List Piece := s.map .bare

def bareText? : List Piece → Option (List Char)
  | [] => some []
  | .bare c :: ps => (bareText? ps).map (c :: ·)
  | _ => none

def isKeyword (keywords : List String) (s : List Piece) : Bool :=
  (bareText? s).any (spells keywords)

theorem bareText?_bare (s : List Char) : bareText? (bare s) = some s := by
  induction s with
  | nil => rfl
  | cons c s ih =>
    rw [bare] at ih
    rw [bare, List.map_cons, bareText?, ih]
    rfl

private theorem eq_bare_of_bareText? {w : List Char} (h : bareText? ps = some w) : ps = bare w := by
  induction ps generalizing w with
  | nil =>
    cases h
    rfl
  | cons p ps ih =>
    cases p with
    | bare c =>
      obtain ⟨v, hv, rfl⟩ := Option.map_eq_some_iff.mp h
      rw [ih hv]
      rfl
    | quoted mark content => cases h
    | comment => cases h

theorem isKeyword_bare (keywords : List String) (w : List Char) :
    isKeyword keywords (bare w) = spells keywords w := by
  rw [isKeyword, bareText?_bare, Option.any_some]

theorem isKeyword_of_parenthesis {keywords : List String}
    (hkeywords : keywords.all (fun k => !k.toList.contains '(') = true) (h : .bare '(' ∈ s) :
    isKeyword keywords s = false := by
  cases htext : bareText? s with
  | none => rw [isKeyword, htext, Option.any_none]
  | some w =>
    rw [eq_bare_of_bareText? htext] at h ⊢
    rw [isKeyword_bare, Bool.eq_false_iff]
    intro hspells
    obtain ⟨k, hk, heq⟩ := List.any_eq_true.mp hspells
    obtain ⟨c, hc, hcopy⟩ := List.mem_map.mp h
    cases hcopy
    have hmem : '(' ∈ k.toList := by
      rw [← beq_iff_eq.mp heq]
      exact List.mem_map.mpr ⟨'(', hc, rfl⟩
    have hnot := List.all_eq_true.mp hkeywords k hk
    simp [hmem] at hnot

private theorem isSolid_of_class {p : Char → Bool}
    (hblanks : blankCodes.all (fun n => !p (Char.ofNat n)) = true) (hopen : p '(' = false)
    (hclose : p ')' = false) {c : Char} (hc : p c = true) : isSolid (.bare c) = true := by
  have hgap : isSpacing c = false := by
    rw [Bool.eq_false_iff]
    intro hspacing
    have hvisible := isBlank_of_class hblanks hc
    rw [isBlank_of_isSpacing hspacing] at hvisible
    cases hvisible
  have hne : c ≠ '(' ∧ c ≠ ')' := by
    constructor
    · rintro rfl
      rw [hopen] at hc
      cases hc
    · rintro rfl
      rw [hclose] at hc
      cases hc
  simp [isSolid, isGap, isFlat, hgap, hne]

/-- A text that is one segment: it is not empty, and without white space and parentheses. -/
def isSolidText (w : List Char) : Bool := !w.isEmpty && w.all fun c => isSolid (.bare c)

theorem isSegment_bare {w : List Char} (h : isSolidText w = true) : IsSegment (bare w) := by
  obtain ⟨hne, hsolid⟩ := Bool.and_eq_true_iff.mp h
  refine ⟨by simpa [bare] using hne, joined_of_isSolid fun p hp => ?_⟩
  obtain ⟨c, hc, rfl⟩ := List.mem_map.mp hp
  exact List.all_eq_true.mp hsolid c hc

private theorem isSolidText_of_class {p : Char → Bool}
    (hblanks : blankCodes.all (fun n => !p (Char.ofNat n)) = true) (hopen : p '(' = false)
    (hclose : p ')' = false) {w : List Char} (hne : w ≠ []) (h : ∀ c ∈ w, p c = true) :
    isSolidText w = true := by
  have hsolid : ∀ c ∈ w, isSolid (.bare c) = true :=
    fun c hc => isSolid_of_class hblanks hopen hclose (h c hc)
  simp [isSolidText, hne, List.all_eq_true.mpr hsolid]

theorem isSegment_quoted (mark : Char) (content : List Char) :
    IsSegment [.quoted mark content] :=
  ⟨List.cons_ne_nil _ _, joined_of_isSolid (List.forall_mem_singleton.mpr rfl)⟩

/-! ## Column types -/

variable {base : String} {size modifiers values : List (List Char)} {t : ColumnType}

/-- The segments of a column type: its base type with the size, and each of its modifiers. -/
def typeSegments : ColumnType → List (List Piece)
  | .plain base size modifiers => bare (base.toList ++ sizeChars size) :: modifiers.map bare
  | .choice base values => [bare base ++ (.bare '(' :: (listedPieces values ++ [.bare ')']))]

def asWritten : Piece → List Char
  | .bare c => [c]
  | .quoted mark content => mark :: content ++ [mark]
  | .comment => []

def textOf (segs : List (List Piece)) : List Char :=
  Split.joinWith [' '] (segs.map (·.flatMap asWritten))

private theorem bare_append (a b : List Char) : bare (a ++ b) = bare a ++ bare b := List.map_append

private theorem flatMap_asWritten_bare (w : List Char) : (bare w).flatMap asWritten = w := by
  rw [bare, List.flatMap_map]
  exact List.flatMap_singleton' w

theorem spaced_typeSegments (t : ColumnType) :
    spaced (typeSegments t) = .bare ' ' :: typePieces t := by
  cases t with
  | plain base size modifiers =>
    have hchars : ColumnType.chars (.plain base size modifiers) =
        base.toList ++ sizeChars size ++ modifiers.flatMap fun m => ' ' :: m := rfl
    rw [typePieces, hchars]
    simp [typeSegments, spaced, bare, List.map_flatMap, List.flatMap_map]
  | choice base values => simp [typeSegments, typePieces, spaced, bare]

private theorem flatMap_asWritten_listedPieces (values : List (List Char)) :
    (listedPieces values).flatMap asWritten = Split.joinWith [','] (values.map quotedValue) := by
  induction values with
  | nil => rfl
  | cons v values ih =>
    cases values with
    | nil => simp [listedPieces, asWritten, Split.joinWith, quotedValue]
    | cons w values =>
      have hpieces : listedPieces (v :: w :: values) =
          .quoted '\'' v :: .bare ',' :: listedPieces (w :: values) := rfl
      rw [hpieces, List.flatMap_cons, List.flatMap_cons, ih]
      simp [asWritten, Split.joinWith, quotedValue]

theorem textOf_typeSegments (t : ColumnType) : textOf (typeSegments t) = t.chars := by
  cases t with
  | plain base size modifiers =>
    have hmodifiers : (modifiers.map bare).map (·.flatMap asWritten) = modifiers := by
      simp [Function.comp_def, flatMap_asWritten_bare]
    rw [textOf, typeSegments, List.map_cons, flatMap_asWritten_bare, hmodifiers,
      joinWith_eq_append_flatMap]
    rfl
  | choice base values =>
    simp [textOf, typeSegments, Split.joinWith, flatMap_asWritten_bare,
      flatMap_asWritten_listedPieces, asWritten, ColumnType.chars]

private theorem isFlat_of_isDecimal {c : Char} (h : Digit.isDecimal c = true) :
    isFlat (.bare c) = true :=
  (Bool.and_eq_true_iff.mp
    (isSolid_of_class (p := Digit.isDecimal) (by decide) (by decide) (by decide) h)).2

private theorem joined_sizeChars (h : ∀ n ∈ size, ∀ c ∈ n, Digit.isDecimal c = true) :
    Joined (bare (sizeChars size)) := by
  unfold sizeChars
  split
  · exact joined_of_isSolid nofun
  · have hinner : ∀ p ∈ bare (Split.joinWith [','] size), isFlat p = true := by
      intro p hp
      obtain ⟨c, hc, rfl⟩ := List.mem_map.mp hp
      rcases mem_joinWith hc with rfl | ⟨n, hn, hc⟩
      · rfl
      · exact isFlat_of_isDecimal (h n hn c hc)
    have hjoined := joined_parenthesized hinner
    simpa [bare] using hjoined

private theorem isSegment_of_spelled {m : List Char}
    (h : m ∈ spellings "unsigned" ∨ m ∈ spellings "zerofill") : IsSegment (bare m) := by
  have hmodifier := isModifier_of_spelled h
  exact isSegment_bare (isSolidText_of_class (p := isBaseLetter) (by decide) (by decide)
    (by decide) hmodifier.ne_nil hmodifier.letters)

theorem isSegment_type (h : Formed t) : ∀ s ∈ typeSegments t, IsSegment s := by
  cases h with
  | plain hbase hsize _ hmodifiers =>
    have hbases : ∀ base ∈ plainBases, isSolidText base.toList = true := by decide
    have hfront := (isSegment_bare (hbases _ hbase)).append
      (joined_sizeChars fun n hn => (hsize n hn).2)
    rw [← bare_append] at hfront
    refine List.forall_mem_cons.mpr ⟨hfront, ?_⟩
    intro s hs
    obtain ⟨m, hm, rfl⟩ := List.mem_map.mp hs
    exact isSegment_of_spelled (hmodifiers m hm)
  | @choice base values hkeyword _ _ =>
    have hflat : ∀ p ∈ listedPieces values, isFlat p = true := by
      intro p hp
      rcases mem_listedPieces hp with rfl | ⟨v, rfl⟩
      · rfl
      · rfl
    have hsolid : isSolidText base = true := by
      rcases keyword_of_spelled hkeyword with rfl | rfl
      · decide
      · decide
    exact List.forall_mem_singleton.mpr
      ((isSegment_bare hsolid).append (joined_parenthesized hflat))

/-! ## Defaults -/

def isNumberChar (c : Char) : Bool := c.isDigit || ['.', 'e', '+', '-'].contains c

private theorem isNumberChar_of_isDigit {c : Char} (h : c.isDigit = true) :
    isNumberChar c = true := by
  rw [isNumberChar, h, Bool.true_or]

private theorem isNumberChar_of_decimalText {w : List Char} (h : IsDecimalText w) :
    ∀ c ∈ w, isNumberChar c = true := by
  obtain ⟨ds, fs, es, rfl, _, hds, hfs, hes⟩ := h
  have hdigits : ∀ {w : List Char}, (∀ c ∈ w, c.isDigit = true) →
      ∀ c ∈ w, isNumberChar c = true := fun hw c hc => isNumberChar_of_isDigit (hw c hc)
  refine List.forall_mem_append.mpr ⟨List.forall_mem_append.mpr ⟨hdigits hds, ?_⟩, ?_⟩
  · rcases hfs with rfl | ⟨fs, rfl, hfs⟩
    · nofun
    · exact List.forall_mem_cons.mpr ⟨rfl, hdigits hfs⟩
  · rcases hes with rfl | ⟨sign, d, es, rfl, hsign, hes⟩
    · nofun
    · refine List.forall_mem_cons.mpr ⟨rfl, List.forall_mem_cons.mpr ⟨?_, hdigits hes⟩⟩
      rcases hsign with rfl | rfl
      · rfl
      · rfl

private theorem isSegment_numberText {w : List Char} (h : IsNumberText w) : IsSegment (bare w) := by
  have hchars : ∀ c ∈ w, isNumberChar c = true := by
    rcases h with h | ⟨t, rfl, ht⟩
    · exact isNumberChar_of_decimalText h
    · exact List.forall_mem_cons.mpr ⟨rfl, isNumberChar_of_decimalText ht⟩
  exact isSegment_bare (isSolidText_of_class (p := isNumberChar) (by decide) (by decide)
    (by decide) h.ne_nil hchars)

private theorem joined_precision {w : List Char} (h : IsPrecision w) : Joined (bare w) := by
  rcases h with rfl | ⟨a, d, b, rfl, hblank, hd⟩
  · exact joined_of_isSolid nofun
  · have hblanks : ∀ c, isBlank c = true → isFlat (.bare c) = true := by
      intro c hc
      exact of_isBlank (p := fun c => isFlat (.bare c)) (by decide) hc
    have hdigit : isFlat (.bare d) = true := (Bool.and_eq_true_iff.mp
      (isSolid_of_class (p := Char.isDigit) (by decide) (by decide) (by decide) hd)).2
    have hinner : ∀ p ∈ bare (a ++ d :: b), isFlat p = true := by
      intro p hp
      obtain ⟨c, hc, rfl⟩ := List.mem_map.mp hp
      rcases List.mem_append.mp hc with hc | hc
      · exact hblanks c (hblank c (List.mem_append_left b hc))
      · rcases List.mem_cons.mp hc with rfl | hc
        · exact hdigit
        · exact hblanks c (hblank c (List.mem_append_right a hc))
    have hjoined := joined_parenthesized hinner
    simpa [bare] using hjoined

theorem isSegment_unquoted {w : List Char} (h : IsUnquoted w) : IsSegment (bare w) := by
  cases h with
  | keyword hk =>
    have hall : ∀ k ∈ defaultKeywords, isSolidText k.toList = true := by decide
    exact isSegment_bare (hall _ hk)
  | number hw => exact isSegment_numberText hw
  | time hw =>
    -- White space other than blanks is kept in a request, but only inside its parentheses.
    have hall : ∀ k ∈ spellings Default.currentTime, isSolidText k = true := by decide
    obtain ⟨k, p, hnormal, hk, hp⟩ := exists_normalTime hw
    rw [hnormal, bare_append]
    exact (isSegment_bare (hall k hk)).append (joined_precision hp)

end QueryGateway.Proofs.Sql.Segments
