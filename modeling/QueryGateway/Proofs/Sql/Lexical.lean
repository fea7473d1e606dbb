import QueryGateway.Proofs.Sql.Names
import QueryGateway.Sql.Fragment

/-!
How the server cuts statement text into pieces: quotations, comments and the characters between
them. Fragments that are kept apart are read as what they stand for, whatever stands in their
quotations.
-/

set_option autoImplicit false
set_option relaxedAutoImplicit false

namespace QueryGateway.Proofs.Sql.Lexical

open QueryGateway.Sql
open QueryGateway.Proofs.Sql.Names

/-! ## Reading -/

/-- A piece of a text: a character outside quotations, a quotation with what it stands for, or a
comment. -/
inductive Piece
  | bare (c : Char)
  | quoted (mark : Char) (content : List Char)
  | comment
  deriving DecidableEq, Repr

/-- Where in a text the server is. -/
inductive Mode
  | outside
  | inside (mark : Char) (content : List Char)
  | escaped (mark : Char) (content : List Char)
  | closing (mark : Char) (content : List Char)
  | line
  | opening
  | block
  | ending
  deriving DecidableEq, Repr

/-- The marks around quotations: of texts, and of names. -/
def isMark (c : Char) : Bool := c == '\'' || c == '"' || c == '`'

def escape (c : Char) : List Char :=
  match c with
  | '0' => [Char.ofNat 0]
  | 'b' => [Char.ofNat 8]
  | 'n' => ['\n']
  | 'r' => ['\r']
  | 't' => ['\t']
  | 'Z' => [Char.ofNat 26]
  | '%' => ['\\', '%']
  | '_' => ['\\', '_']
  | c => [c]

/-- Whether a character opens a comment up to the end of the line. Two dashes do so where a rule
about what follows them says it. -/
def opensLine (dashes : List Char → Bool) (c : Char) (rest : List Char) : Bool :=
  c == '#' || (c == '-' && rest.head? == some '-' && dashes rest.tail)

def opensBlock (c : Char) (rest : List Char) : Bool := c == '/' && rest.head? == some '*'

/-- What a character outside quotations leads to, and the pieces that it completes. -/
def stepOutside (dashes : List Char → Bool) (c : Char) (rest : List Char) : Mode × List Piece :=
  if isMark c then (.inside c [], [])
  else if opensLine dashes c rest then (.line, [.comment])
  else if opensBlock c rest then (.opening, [.comment])
  else (.outside, [.bare c])

/-- What the next character of a text leads to, and the pieces that it completes. -/
def step (dashes : List Char → Bool) (m : Mode) (c : Char) (rest : List Char) :
    Mode × List Piece :=
  match m with
  | .outside => stepOutside dashes c rest
  | .inside mark content =>
    if c = mark then (.closing mark content, [])
    else if c = '\\' && mark != '`' then (.escaped mark content, [])
    else (.inside mark (content ++ [c]), [])
  | .escaped mark content => (.inside mark (content ++ escape c), [])
  | .closing mark content =>
    if c = mark then (.inside mark (content ++ [mark]), [])
    else
      let next := stepOutside dashes c rest
      (next.1, .quoted mark content :: next.2)
  | .line => (if c = '\n' then .outside else .line, [])
  | .opening => (.block, [])
  | .block => (if c = '*' then .ending else .block, [])
  | .ending => (if c = '/' then .outside else if c = '*' then .ending else .block, [])

/-- The pieces that the end of a text completes, nothing where a quotation or a comment is open. -/
def Mode.finish? : Mode → Option (List Piece)
  | .outside => some []
  | .closing mark content => some [.quoted mark content]
  | .line => some []
  | _ => none

def scan? (dashes : List Char → Bool) : Mode → List Char → Option (List Piece)
  | m, [] => m.finish?
  | m, c :: rest =>
    (scan? dashes (step dashes m c rest).1 rest).map fun ps => (step dashes m c rest).2 ++ ps

def pieces? (dashes : List Char → Bool) (s : List Char) : Option (List Piece) :=
  scan? dashes .outside s

/-! ## Pieces of a text at the start of a longer one -/

/-- A text that is cut into some pieces by every rule about dashes, whatever follows it. -/
def Reads (s : List Char) (ps : List Piece) : Prop :=
  ∀ dashes rest, pieces? dashes (s ++ rest) = (pieces? dashes rest).map fun qs => ps ++ qs

def startsPlain : List Char → Bool
  | [] => true
  | c :: _ => !isMark c

/-- A text that is cut into some pieces as long as what follows does not start with a mark. -/
def ReadsApart (s : List Char) (ps : List Piece) : Prop :=
  ∀ dashes rest, startsPlain rest = true →
    pieces? dashes (s ++ rest) = (pieces? dashes rest).map fun qs => ps ++ qs

private theorem Reads.readsApart {s : List Char} {ps : List Piece} (h : Reads s ps) :
    ReadsApart s ps :=
  fun dashes rest _ => h dashes rest

private theorem reads_nil : Reads [] [] := by
  intro dashes rest
  simp

theorem Reads.append {s t : List Char} {ps qs : List Piece} (hs : Reads s ps) (ht : Reads t qs) :
    Reads (s ++ t) (ps ++ qs) := by
  intro dashes rest
  rw [List.append_assoc, hs, ht]
  simp [Function.comp_def]

theorem ReadsApart.append {s t : List Char} {ps qs : List Piece} (hs : ReadsApart s ps)
    (ht : Reads t qs) (hstart : startsPlain t = true) (hne : t ≠ []) :
    Reads (s ++ t) (ps ++ qs) := by
  intro dashes rest
  have hrest : startsPlain (t ++ rest) = true := by
    cases t with
    | nil => exact absurd rfl hne
    | cons c t => exact hstart
  rw [List.append_assoc, hs dashes _ hrest, ht]
  simp [Function.comp_def]

theorem Reads.eq {s : List Char} {ps : List Piece} (h : Reads s ps) (dashes : List Char → Bool) :
    pieces? dashes s = some ps := by
  simpa [pieces?, scan?, Mode.finish?] using h dashes []

/-! ## Quotations -/

private theorem scan?_literal (dashes : List Char → Bool) (content before rest : List Char) :
    scan? dashes (.inside '\'' before) (content.flatMap Fragment.escapeChar ++ '\'' :: rest) =
      scan? dashes (.closing '\'' (before ++ content)) rest := by
  induction content generalizing before with
  | nil => simp [scan?, step]
  | cons c content ih =>
    rw [List.flatMap_cons, List.append_assoc]
    by_cases hquote : c = '\''
    · subst hquote
      simp [Fragment.escapeChar, scan?, step, ih]
    · by_cases hslash : c = '\\'
      · subst hslash
        simp [Fragment.escapeChar, scan?, step, escape, ih]
      · simp [Fragment.escapeChar, hquote, hslash, scan?, step, ih]

private theorem scan?_inside (dashes : List Char → Bool) (mark : Char) {content : List Char}
    (h : ∀ c ∈ content, c ≠ mark ∧ c ≠ '\\') (before rest : List Char) :
    scan? dashes (.inside mark before) (content ++ mark :: rest) =
      scan? dashes (.closing mark (before ++ content)) rest := by
  induction content generalizing before with
  | nil => simp [scan?, step]
  | cons c content ih =>
    obtain ⟨⟨hmark, hslash⟩, hrest⟩ := List.forall_mem_cons.mp h
    simp [scan?, step, hmark, hslash, ih hrest]

private theorem scan?_closing (dashes : List Char → Bool) {mark : Char} (hmark : isMark mark = true)
    (content : List Char) {rest : List Char} (hrest : startsPlain rest = true) :
    scan? dashes (.closing mark content) rest =
      (pieces? dashes rest).map fun ps => .quoted mark content :: ps := by
  cases rest with
  | nil => rfl
  | cons c rest =>
    have hne : c ≠ mark := by
      rintro rfl
      simp [startsPlain, hmark] at hrest
    simp [pieces?, scan?, step, hne, Function.comp_def]

private theorem readsApart_literal (content : List Char) :
    ReadsApart (Fragment.quoteLiteral content) [.quoted '\'' content] := by
  intro dashes rest hrest
  have hopen : pieces? dashes (Fragment.quoteLiteral content ++ rest) =
      scan? dashes (.inside '\'' []) (content.flatMap Fragment.escapeChar ++ '\'' :: rest) := by
    simp [Fragment.quoteLiteral, pieces?, scan?, step, stepOutside, isMark]
  rw [hopen, scan?_literal, scan?_closing dashes rfl _ hrest, List.nil_append]
  rfl

theorem readsApart_quotation {mark : Char} (hmark : isMark mark = true) {content : List Char}
    (h : ∀ c ∈ content, c ≠ mark ∧ c ≠ '\\') :
    ReadsApart (mark :: content ++ [mark]) [.quoted mark content] := by
  intro dashes rest hrest
  have hopen : pieces? dashes (mark :: content ++ [mark] ++ rest) =
      scan? dashes (.inside mark []) (content ++ mark :: rest) := by
    simp [pieces?, scan?, step, stepOutside, hmark]
  rw [hopen, scan?_inside dashes mark h, scan?_closing dashes hmark _ hrest, List.nil_append]
  rfl

private theorem readsApart_name (n : Name) : ReadsApart n.quoted [.quoted '`' n.chars] := by
  refine readsApart_quotation rfl fun c hc => ?_
  have hname := isNameChar_of_mem hc
  refine ⟨?_, ?_⟩
  · rintro rfl
    exact absurd hname (by decide)
  · rintro rfl
    exact absurd hname (by decide)

/-! ## Characters outside quotations -/

/-- A character that means nothing to the server outside quotations, wherever it stands. -/
def isQuiet (c : Char) : Bool := !(isMark c || c == ';' || c == '#' || c == '-' || c == '/')

/-- Text of quiet characters, and of dashes that no other dash follows. -/
def isCalm : List Char → Bool
  | [] => true
  | c :: rest => (isQuiet c || (c == '-' && rest.head?.any isQuiet)) && isCalm rest

theorem isCalm_of_quiet {s : List Char} (h : ∀ c ∈ s, isQuiet c = true) : isCalm s = true := by
  induction s with
  | nil => rfl
  | cons c s ih =>
    obtain ⟨hc, hs⟩ := List.forall_mem_cons.mp h
    simp [isCalm, hc, ih hs]

theorem isCalm_append {s t : List Char} (hs : isCalm s = true) (ht : isCalm t = true) :
    isCalm (s ++ t) = true := by
  induction s with
  | nil => exact ht
  | cons c s ih =>
    rw [isCalm, Bool.and_eq_true] at hs
    rw [List.cons_append, isCalm, Bool.and_eq_true]
    refine ⟨?_, ih hs.2⟩
    cases s with
    | nil =>
      have hc : isQuiet c = true := by simpa using hs.1
      rw [hc, Bool.true_or]
    | cons d s => exact hs.1

private theorem stepOutside_of_isQuiet (dashes : List Char → Bool) {c : Char} (h : isQuiet c = true)
    (rest : List Char) : stepOutside dashes c rest = (.outside, [.bare c]) := by
  simp only [isQuiet, Bool.not_eq_true', Bool.or_eq_false_iff] at h
  obtain ⟨⟨⟨⟨hmark, _⟩, hsharp⟩, hdash⟩, hslash⟩ := h
  simp [stepOutside, opensLine, opensBlock, hmark, hsharp, hdash, hslash]

theorem reads_of_isCalm {s : List Char} (h : isCalm s = true) : Reads s (s.map .bare) := by
  induction s with
  | nil => exact reads_nil
  | cons c s ih =>
    rw [isCalm, Bool.and_eq_true] at h
    intro dashes rest
    have hstep : stepOutside dashes c (s ++ rest) = (.outside, [.bare c]) := by
      rcases Bool.or_eq_true_iff.mp h.1 with hquiet | hdash
      · exact stepOutside_of_isQuiet dashes hquiet _
      · cases s with
        | nil => simp at hdash
        | cons d s =>
          obtain ⟨rfl, hd⟩ : c = '-' ∧ isQuiet d = true := by simpa using hdash
          have hne : d ≠ '-' := by
            rintro rfl
            exact absurd hd (by decide)
          simp [stepOutside, isMark, opensLine, opensBlock, hne]
    have hrest := ih h.2 dashes rest
    rw [pieces?] at hrest
    simp [pieces?, scan?, step, hstep, hrest, Function.comp_def]

/-! ## Fragments in a row -/

theorem render_append (fs gs : List Fragment) :
    Fragment.render (fs ++ gs) = Fragment.render fs ++ Fragment.render gs :=
  List.flatMap_append

theorem render_cons (f : Fragment) (fs : List Fragment) :
    Fragment.render (f :: fs) = f.chars ++ Fragment.render fs :=
  List.flatMap_cons

/-- A piece that may stand in a statement: no end of a statement, no comment, and no text in double
quotes. -/
def Piece.isTame : Piece → Bool
  | .bare c => c != ';'
  | .quoted mark _ => mark != '"'
  | .comment => false

def Piece.name? : Piece → Option (List Char)
  | .quoted '`' content => some content
  | _ => none

/-- Pieces that words may be cut into: tame ones, and no names. -/
def AreTame (ps : List Piece) : Prop := ∀ p ∈ ps, p.isTame = true ∧ p.name? = none

/-- Words that are safe wherever they stand: they start plain, and are cut into tame pieces without
names, whatever follows them. -/
structure IsPlain (s : String) : Prop where
  nonempty : s.toList ≠ []
  starts : startsPlain s.toList = true
  reads : ∃ ps, Reads s.toList ps ∧ AreTame ps

def piecesOf : Fragment → List Piece
  | .words s => (pieces? (fun _ => true) s.toList).getD []
  | .name n => [.quoted '`' n.chars]
  | .mark => [.bare '?']
  | .literal content => [.quoted '\'' content]
  | .raw s => (pieces? (fun _ => true) s.toList).getD []

def Sound : Fragment → Prop
  | .words s => IsPlain s
  | .raw _ => False
  | _ => True

def isQuotation : Fragment → Bool
  | .name _ => true
  | .literal _ => true
  | _ => false

def startsQuoted (fs : List Fragment) : Bool := fs.head?.any isQuotation

def Orderly : List Fragment → Prop
  | [] => True
  | f :: fs => Sound f ∧ (isQuotation f = true → startsQuoted fs = false) ∧ Orderly fs

theorem areTame_of_isCalm {s : List Char} (h : isCalm s = true) : AreTame (s.map .bare) := by
  have hne : ∀ c ∈ s, c ≠ ';' := by
    induction s with
    | nil => nofun
    | cons c s ih =>
      rw [isCalm, Bool.and_eq_true] at h
      refine List.forall_mem_cons.mpr ⟨?_, ih h.2⟩
      rintro rfl
      exact absurd h.1 (by simp [isQuiet])
  intro p hp
  obtain ⟨c, hc, rfl⟩ := List.mem_map.mp hp
  exact ⟨by simpa [Piece.isTame] using hne c hc, rfl⟩

private theorem startsPlain_of_isCalm {s : List Char} (h : isCalm s = true) :
    startsPlain s = true := by
  cases s with
  | nil => rfl
  | cons c s =>
    rw [isCalm, Bool.and_eq_true, Bool.or_eq_true] at h
    rcases h.1 with hquiet | hdash
    · simp only [isQuiet, Bool.not_eq_true', Bool.or_eq_false_iff] at hquiet
      simp [startsPlain, hquiet]
    · obtain ⟨hc, _⟩ := Bool.and_eq_true_iff.mp hdash
      rw [beq_iff_eq.mp hc]
      rfl

theorem isPlain_of_isCalm {s : String} (hne : s.toList ≠ []) (hcalm : isCalm s.toList = true) :
    IsPlain s :=
  ⟨hne, startsPlain_of_isCalm hcalm, s.toList.map .bare, reads_of_isCalm hcalm,
    areTame_of_isCalm hcalm⟩

private theorem IsPlain.reads_piecesOf {s : String} (h : IsPlain s) :
    Reads s.toList (piecesOf (.words s)) := by
  obtain ⟨ps, hreads, _⟩ := h.reads
  rwa [piecesOf, hreads.eq, Option.getD_some]

private theorem reads_mark : Reads (Fragment.chars .mark) (piecesOf .mark) := reads_of_isCalm rfl

private theorem readsApart_of_sound {f : Fragment} (h : Sound f) :
    ReadsApart f.chars (piecesOf f) := by
  cases f with
  | words s => exact h.reads_piecesOf.readsApart
  | name n => exact readsApart_name n
  | mark => exact reads_mark.readsApart
  | literal content => exact readsApart_literal content
  | raw s => exact h.elim

private theorem reads_of_sound {f : Fragment} (h : Sound f) (hq : isQuotation f = false) :
    Reads f.chars (piecesOf f) := by
  cases f with
  | words s => exact h.reads_piecesOf
  | name n => cases hq
  | mark => exact reads_mark
  | literal content => cases hq
  | raw s => exact h.elim

private theorem startsPlain_render {fs : List Fragment} (h : Orderly fs)
    (hq : startsQuoted fs = false) :
    startsPlain (Fragment.render fs) = true := by
  cases fs with
  | nil => rfl
  | cons f fs =>
    cases f with
    | words s =>
      obtain ⟨hne, hstart, _⟩ := h.1
      rw [Fragment.render, List.flatMap_cons, Fragment.chars]
      cases hs : s.toList with
      | nil => exact absurd hs hne
      | cons c r =>
        rw [hs] at hstart
        exact hstart
    | name n => cases hq
    | mark => rfl
    | literal content => cases hq
    | raw s => exact h.1.elim

theorem pieces?_render {fs : List Fragment} (h : Orderly fs) (dashes : List Char → Bool) :
    pieces? dashes (Fragment.render fs) = some (fs.flatMap piecesOf) := by
  induction fs with
  | nil => rfl
  | cons f fs ih =>
    obtain ⟨hf, hnext, hfs⟩ := h
    rw [Fragment.render, List.flatMap_cons, List.flatMap_cons]
    have hrest := ih hfs
    rw [Fragment.render] at hrest
    cases hq : isQuotation f with
    | false => rw [reads_of_sound hf hq, hrest, Option.map_some]
    | true =>
      have hplain := startsPlain_render hfs (hnext hq)
      rw [Fragment.render] at hplain
      rw [readsApart_of_sound hf dashes _ hplain, hrest, Option.map_some]

end QueryGateway.Proofs.Sql.Lexical
