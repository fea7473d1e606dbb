import QueryGateway.Proofs.Success
import QueryGateway.Proofs.Text.LetterCase
import QueryGateway.Proofs.Text.Blank
import QueryGateway.Proofs.Text.Split
import QueryGateway.Sql.Fragment

/-!
The grammar of ordering texts: pieces between commas, each a name with or without a direction behind
it. A text has a place in the grammar just if it is accepted, and the grammar says what is written
and what is asked for.
-/

set_option autoImplicit false
set_option relaxedAutoImplicit false

namespace QueryGateway.Proofs.Plan.Orderings

open QueryGateway.Sql
open QueryGateway.Text
open QueryGateway.Text.Blank (isBlank)
open QueryGateway.Text.LetterCase (fold isKeyword)
open QueryGateway.Text.Split (joinWith splitOn)
open QueryGateway.Proofs.Success
open QueryGateway.Proofs.Text.LetterCase
open QueryGateway.Proofs.Text.Blank
open QueryGateway.Proofs.Text.Split

/-! ## Grammar -/

/-- One of the two directions in some letter case. -/
def IsDirection (word : List Char) : Prop :=
  word.map Char.toUpper = "ASC".toList ∨ word.map Char.toUpper = "DESC".toList

/-- What the words of a piece are written as: the name in backticks, the direction in capitals. -/
inductive Writes : List (List Char) → List Char → Prop
  | column {name : List Char} (hname : isName name = true) : Writes [name] ('`' :: name ++ ['`'])
  | directed {name word : List Char} (hname : isName name = true) (hword : IsDirection word) :
      Writes [name, word] ('`' :: name ++ ['`', ' '] ++ word.map Char.toUpper)

/-- What a piece between two commas is written as. -/
def WritesPiece (piece out : List Char) : Prop := ∃ words, SplitsInto piece words ∧ Writes words out

/-- What an ordering text is written as. -/
structure WritesText (text out : List Char) : Prop where
  allowed : ∀ c ∈ text, isNameChar c = true ∨ c = ',' ∨ isBlank c = true
  pieces : ∃ pieces outs, pieces ≠ [] ∧ (∀ piece ∈ pieces, ',' ∉ piece) ∧
    text = joinWith [','] pieces ∧ List.Forall₂ WritesPiece pieces outs ∧
    out = joinWith [',', ' '] outs

/-! ## Directions -/

private theorem cases_of_ascii {c : Char} (h : c.toNat < 128) :
    (fold c).toUpper = c.toUpper ∧ c.toUpper.toLower = fold c :=
  of_ascii (p := fun c => (fold c).toUpper = c.toUpper ∧ c.toUpper.toLower = fold c)
    (by decide +kernel) h

private theorem ascii_of_isNameChar {c : Char} (h : isNameChar c = true) : c.toNat < 128 := by
  rw [isNameChar, Bool.or_eq_true, beq_iff_eq] at h
  rcases h with halphanum | rfl
  · exact toNat_lt_of_isAlphanum halphanum
  · decide

private theorem isKeyword_iff_upper (small : String) (capital : List Char) {word : List Char}
    (hword : ∀ c ∈ word, isNameChar c = true) (hup : small.toList.map Char.toUpper = capital)
    (hlow : capital.map Char.toLower = small.toList) :
    isKeyword small word = true ↔ word.map Char.toUpper = capital := by
  have hcases : ∀ c ∈ word, (fold c).toUpper = c.toUpper ∧ c.toUpper.toLower = fold c :=
    fun c hc => cases_of_ascii (ascii_of_isNameChar (hword c hc))
  rw [isKeyword, beq_iff_eq]
  constructor
  · intro h
    rw [← hup, ← h, List.map_map]
    exact List.map_congr_left fun c hc => (hcases c hc).1.symm
  · intro h
    rw [← hlow, ← h, List.map_map]
    exact List.map_congr_left fun c hc => (hcases c hc).2.symm

def capitals : Direction → List Char
  | .ascending => "ASC".toList
  | .descending => "DESC".toList

private theorem directionOf?_eq_some {word : List Char} {d : Direction}
    (hword : ∀ c ∈ word, isNameChar c = true) :
    OrderTerm.directionOf? word = some d ↔ word.map Char.toUpper = capitals d := by
  have hasc := isKeyword_iff_upper "asc" "ASC".toList hword rfl rfl
  have hdesc := isKeyword_iff_upper "desc" "DESC".toList hword rfl rfl
  unfold OrderTerm.directionOf?
  by_cases ha : word.map Char.toUpper = "ASC".toList
  · rw [if_pos (hasc.mpr ha), ha]
    cases d with
    | ascending => exact iff_of_true rfl rfl
    | descending => exact iff_of_false nofun (by decide)
  · rw [if_neg fun h => ha (hasc.mp h)]
    by_cases hd : word.map Char.toUpper = "DESC".toList
    · rw [if_pos (hdesc.mpr hd), hd]
      cases d with
      | ascending => exact iff_of_false nofun (by decide)
      | descending => exact iff_of_true rfl rfl
    · rw [if_neg fun h => hd (hdesc.mp h)]
      cases d with
      | ascending => exact iff_of_false nofun ha
      | descending => exact iff_of_false nofun hd

private theorem isDirection_iff {word : List Char} :
    IsDirection word ↔ ∃ d, word.map Char.toUpper = capitals d := by
  constructor
  · rintro (h | h)
    · exact ⟨.ascending, h⟩
    · exact ⟨.descending, h⟩
  · rintro ⟨d, h⟩
    cases d with
    | ascending => exact .inl h
    | descending => exact .inr h

private theorem isWord_of_isDirection {word : List Char} (h : IsDirection word) : IsWord word := by
  have hasc : "ASC".toList.all "ASCDE".toList.contains = true := by decide +kernel
  have hdesc : "DESC".toList.all "ASCDE".toList.contains = true := by decide +kernel
  have hletters : ∀ c ∈ word, "ASCDE".toList.contains c.toUpper = true := by
    intro c hc
    have hmem := List.mem_map_of_mem (f := Char.toUpper) hc
    rcases h with h | h
    · exact List.all_eq_true.mp hasc _ (h ▸ hmem)
    · exact List.all_eq_true.mp hdesc _ (h ▸ hmem)
  refine ⟨?_, fun c hc => isBlank_of_class (p := fun c => "ASCDE".toList.contains c.toUpper)
    (by decide +kernel) (hletters c hc)⟩
  rintro rfl
  rcases h with h | h <;> cases h

/-! ## Terms -/

private theorem chars?_eq_some {name : List Char} {n : Name} :
    Name.ofChars? name = some n ↔ isName name = true ∧ n.chars = name := by
  unfold Name.ofChars?
  split
  · rename_i h
    constructor
    · intro hn
      cases hn
      exact ⟨h, rfl⟩
    · rintro ⟨-, rfl⟩
      rfl
  · rename_i h
    constructor
    · intro hn
      cases hn
    · rintro ⟨hn, -⟩
      exact absurd hn h

private theorem render_fragments (t : OrderTerm) : Fragment.render t.fragments =
    t.column.quoted ++ (t.direction.map fun d => ' ' :: capitals d).getD [] := by
  obtain ⟨n, _ | _ | _⟩ := t
  · rfl
  · rfl
  · rfl

private theorem writes_iff {words : List (List Char)} {out : List Char}
    (hwords : ∀ word ∈ words, ∀ c ∈ word, isNameChar c = true) :
    Writes words out ↔
      ∃ t, OrderTerm.ofWords? words = some t ∧ Fragment.render t.fragments = out := by
  constructor
  · intro h
    cases h with
    | column hname =>
      obtain ⟨n, hn⟩ : ∃ n, Name.ofChars? _ = some n := ⟨⟨_, hname⟩, dif_pos hname⟩
      refine ⟨⟨n, none⟩, by rw [OrderTerm.ofWords?, hn]; rfl, ?_⟩
      rw [render_fragments, Name.quoted, (chars?_eq_some.mp hn).2]
      exact List.append_nil _
    | directed hname hword =>
      rename_i name word
      obtain ⟨n, hn⟩ : ∃ n, Name.ofChars? name = some n := ⟨⟨_, hname⟩, dif_pos hname⟩
      obtain ⟨d, hd⟩ := isDirection_iff.mp hword
      have hdir := (directionOf?_eq_some (hwords word (by simp))).mpr hd
      refine ⟨⟨n, some d⟩, by rw [OrderTerm.ofWords?, hn, hdir]; rfl, ?_⟩
      rw [render_fragments, Name.quoted, (chars?_eq_some.mp hn).2, hd]
      simp
  · rintro ⟨t, ht, rfl⟩
    unfold OrderTerm.ofWords? at ht
    split at ht
    · obtain ⟨n, hn, rfl⟩ := Option.map_eq_some_iff.mp ht
      obtain ⟨hname, hchars⟩ := chars?_eq_some.mp hn
      rw [render_fragments, Name.quoted, hchars]
      simpa using Writes.column hname
    · rename_i name word
      obtain ⟨n, hn, ht⟩ := Option.bind_eq_some_iff.mp ht
      obtain ⟨d, hdir, rfl⟩ := Option.map_eq_some_iff.mp ht
      obtain ⟨hname, hchars⟩ := chars?_eq_some.mp hn
      have hd := (directionOf?_eq_some (hwords word (by simp))).mp hdir
      rw [render_fragments, Name.quoted, hchars]
      simpa [hd] using Writes.directed hname (isDirection_iff.mpr ⟨d, hd⟩)
    · cases ht

private theorem ofPiece_ok {piece : List Char} {t : OrderTerm} :
    OrderTerm.ofPiece piece = .ok t ↔ OrderTerm.ofWords? (Blank.words piece) = some t := by
  unfold OrderTerm.ofPiece
  cases OrderTerm.ofWords? (Blank.words piece) with
  | none => simp
  | some u => simp

private theorem mem_of_splitsInto {s : List Char} {words : List (List Char)}
    (h : SplitsInto s words) :
    ∀ word ∈ words, ∀ c ∈ word, c ∈ s ∧ isBlank c = false := by
  intro word hword c hc
  have hmem : c ∈ words.flatten := List.mem_flatten.mpr ⟨word, hword, hc⟩
  rw [← words_eq_iff.mpr h, flatten_words, List.mem_filter] at hmem
  exact ⟨hmem.1, by simpa using hmem.2⟩

private theorem isNameChar_of_words {piece : List Char}
    (hallowed : ∀ c ∈ piece, OrderTerm.isAllowed c = true) (hcomma : ',' ∉ piece) :
    ∀ word ∈ Blank.words piece, ∀ c ∈ word, isNameChar c = true := by
  intro word hword c hc
  obtain ⟨hmem, hblank⟩ := mem_of_splitsInto (splitsInto_words piece) word hword c hc
  have hc := hallowed c hmem
  have hne : c ≠ ',' := fun h => hcomma (h ▸ hmem)
  simpa [OrderTerm.isAllowed, hblank, hne] using hc

private theorem writesPiece_iff {piece out : List Char}
    (hallowed : ∀ c ∈ piece, OrderTerm.isAllowed c = true) (hcomma : ',' ∉ piece) :
    WritesPiece piece out ↔
      ∃ t, OrderTerm.ofPiece piece = .ok t ∧ Fragment.render t.fragments = out := by
  simp only [WritesPiece, ← words_eq_iff, exists_eq_left', ofPiece_ok]
  exact writes_iff (isNameChar_of_words hallowed hcomma)

/-! ## Pattern -/

/-- What stands behind the name where the pattern of a term takes a direction, or none. -/
inductive IsRest : Option (List Char) → List Char → Prop
  | bare : IsRest none []
  | directed {gap word : List Char} (hne : gap ≠ []) (hgap : ∀ c ∈ gap, isBlank c = true)
      (hword : IsDirection word) : IsRest (some word) (gap ++ word)

/-- How the pattern of a term fits a piece, whichever way it is divided: a name, a direction that
white space parts from it, and white space at both ends. -/
def Fits (piece name : List Char) (word : Option (List Char)) : Prop :=
  ∃ a rest b, (∀ c ∈ a, isBlank c = true) ∧ isName name = true ∧ IsRest word rest ∧
    (∀ c ∈ b, isBlank c = true) ∧ piece = a ++ name ++ (rest ++ b)

private theorem isWord_of_isName {name : List Char} (h : isName name = true) : IsWord name := by
  rw [isName, Bool.and_eq_true, List.all_eq_true] at h
  refine ⟨by simpa using h.1, fun c hc => ?_⟩
  exact isBlank_of_class (by decide +kernel) (h.2 c hc)

private theorem fits_iff {piece name : List Char} {word : Option (List Char)} :
    Fits piece name word ↔ isName name = true ∧ (∀ w ∈ word, IsDirection w) ∧
      SplitsInto piece (name :: word.toList) := by
  constructor
  · rintro ⟨a, rest, b, ha, hname, hrest, hb, rfl⟩
    cases hrest with
    | bare =>
      have hend : ∀ c ∈ ([] ++ b).head?, isBlank c = true := fun c hc => hb c (List.mem_of_head? hc)
      exact ⟨hname, nofun, .word ha (isWord_of_isName hname) hend (.blank hb)⟩
    | directed hne hgap hword =>
      rename_i gap word
      have hend : ∀ c ∈ (gap ++ word ++ b).head?, isBlank c = true := by
        obtain ⟨g, gap, rfl⟩ := List.exists_cons_of_ne_nil hne
        intro c hc
        cases hc
        exact hgap g List.mem_cons_self
      have hsecond : SplitsInto (gap ++ word ++ b) [word] :=
        .word hgap (isWord_of_isDirection hword) (fun c hc => hb c (List.mem_of_head? hc))
          (.blank hb)
      exact ⟨hname, by simpa using hword, .word ha (isWord_of_isName hname) hend hsecond⟩
  · rintro ⟨hname, hword, hsplit⟩
    obtain ⟨a, rest, ha, -, hend, hrest, rfl⟩ := splitsInto_cons.mp hsplit
    cases word with
    | none => exact ⟨a, [], rest, ha, hname, .bare, splitsInto_nil.mp hrest, rfl⟩
    | some word =>
      obtain ⟨gap, b, hgap, hw, -, hb, rfl⟩ := splitsInto_cons.mp hrest
      -- White space ends the first word, so the second cannot follow it at once.
      have hne : gap ≠ [] := by
        rintro rfl
        obtain ⟨c, w, rfl⟩ := List.exists_cons_of_ne_nil hw.1
        have hblank := hend c rfl
        rw [hw.2 c List.mem_cons_self] at hblank
        cases hblank
      exact ⟨a, gap ++ word, b, ha, hname, .directed hne hgap (hword word rfl),
        splitsInto_nil.mp hb, rfl⟩

private theorem writesPiece_iff_fits {piece out : List Char} : WritesPiece piece out ↔
    ∃ name word, Fits piece name word ∧
      out = '`' :: name ++ ['`'] ++ (word.map fun w => ' ' :: w.map Char.toUpper).getD [] := by
  constructor
  · rintro ⟨words, hsplit, hwrites⟩
    cases hwrites with
    | column hname => exact ⟨_, none, fits_iff.mpr ⟨hname, nofun, hsplit⟩, by simp⟩
    | directed hname hword =>
      exact ⟨_, some _, fits_iff.mpr ⟨hname, by simpa using hword, hsplit⟩, by simp⟩
  · rintro ⟨name, word, hfits, rfl⟩
    obtain ⟨hname, hword, hsplit⟩ := fits_iff.mp hfits
    cases word with
    | none => exact ⟨_, hsplit, by simpa using Writes.column hname⟩
    | some word => exact ⟨_, hsplit, by simpa using Writes.directed hname (hword word rfl)⟩

/-! ## Texts -/

private theorem render_separated (sep : String) (parts : List (List Fragment)) :
    Fragment.render (Fragment.separated sep parts) =
      joinWith sep.toList (parts.map Fragment.render) := by
  fun_induction Fragment.separated sep parts with
  | case1 => rfl
  | case2 p => rfl
  | case3 p q ps ih =>
    simp only [List.map_cons] at ih ⊢
    rw [joinWith, ← ih]
    simp [Fragment.render, Fragment.chars]

private theorem allowed_iff {s : List Char} : s.all OrderTerm.isAllowed = true ↔
    ∀ c ∈ s, isNameChar c = true ∨ c = ',' ∨ isBlank c = true := by
  simp [OrderTerm.isAllowed, or_assoc]

private theorem forall₂_writesPiece {pieces : List (List Char)}
    (hpieces : ∀ piece ∈ pieces, (∀ c ∈ piece, OrderTerm.isAllowed c = true) ∧ ',' ∉ piece)
    {outs : List (List Char)} :
    List.Forall₂ WritesPiece pieces outs ↔ ∃ terms, pieces.mapM OrderTerm.ofPiece = .ok terms ∧
      terms.map (fun t => Fragment.render t.fragments) = outs := by
  simp only [mapM_ok]
  induction pieces generalizing outs with
  | nil => simp [eq_comm]
  | cons piece pieces ih =>
    obtain ⟨⟨hallowed, hcomma⟩, hrest⟩ := List.forall_mem_cons.mp hpieces
    constructor
    · intro h
      cases h with
      | cons hpiece houts =>
        obtain ⟨t, ht, rfl⟩ := (writesPiece_iff hallowed hcomma).mp hpiece
        obtain ⟨terms, hterms, rfl⟩ := (ih hrest).mp houts
        exact ⟨t :: terms, .cons ht hterms, rfl⟩
    · rintro ⟨terms, hterms, rfl⟩
      cases hterms with
      | cons ht hterms =>
        refine .cons ((writesPiece_iff hallowed hcomma).mpr ⟨_, ht, rfl⟩) ?_
        exact (ih hrest).mpr ⟨_, hterms, rfl⟩

private theorem listOfValue_ok {s : String} {terms : List OrderTerm} :
    OrderTerm.listOfValue (.text s) = .ok terms ↔ s.toList.all OrderTerm.isAllowed = true ∧
      (splitOn ',' s.toList).mapM OrderTerm.ofPiece = .ok terms := by
  unfold OrderTerm.listOfValue
  dsimp only
  split
  · rename_i hallowed
    exact (and_iff_right hallowed).symm
  · rename_i hallowed
    exact iff_of_false nofun fun h => hallowed h.1

private theorem allowed_of_mem_splitOn {s : List Char} (h : s.all OrderTerm.isAllowed = true) :
    ∀ piece ∈ splitOn ',' s, (∀ c ∈ piece, OrderTerm.isAllowed c = true) ∧ ',' ∉ piece := by
  intro piece hpiece
  refine ⟨fun c hc => ?_, not_mem_of_mem_splitOn piece hpiece⟩
  have hmem : c ∈ joinWith [','] (splitOn ',' s) := mem_joinWith_of_mem hpiece hc
  rw [joinWith_splitOn] at hmem
  exact List.all_eq_true.mp h c hmem

private theorem writesText_iff {s out : List Char} : WritesText s out ↔
    s.all OrderTerm.isAllowed = true ∧ ∃ outs, List.Forall₂ WritesPiece (splitOn ',' s) outs ∧
      out = joinWith [',', ' '] outs := by
  constructor
  · rintro ⟨hallowed, pieces, outs, hne, hcomma, rfl, hpieces, rfl⟩
    refine ⟨allowed_iff.mpr hallowed, outs, ?_, rfl⟩
    rwa [splitOn_joinWith hne hcomma]
  · rintro ⟨hallowed, outs, hpieces, rfl⟩
    exact ⟨allowed_iff.mp hallowed, splitOn ',' s, outs, splitOn_ne_nil ',' s,
      not_mem_of_mem_splitOn, (joinWith_splitOn ',' s).symm, hpieces, rfl⟩

private theorem accepted_iff {s : String} {out : List Char} :
    (∃ terms, OrderTerm.listOfValue (.text s) = .ok terms ∧
      Fragment.render (OrderTerm.listFragments terms) = out) ↔ WritesText s.toList out := by
  rw [writesText_iff]
  simp only [listOfValue_ok, OrderTerm.listFragments, render_separated, List.map_map,
    Function.comp_def]
  constructor
  · rintro ⟨terms, ⟨hallowed, hterms⟩, rfl⟩
    refine ⟨hallowed, _, ?_, rfl⟩
    exact (forall₂_writesPiece (allowed_of_mem_splitOn hallowed)).mpr ⟨terms, hterms, rfl⟩
  · rintro ⟨hallowed, outs, houts, rfl⟩
    obtain ⟨terms, hterms, rfl⟩ := (forall₂_writesPiece (allowed_of_mem_splitOn hallowed)).mp houts
    exact ⟨terms, ⟨hallowed, hterms⟩, rfl⟩

private theorem category_of_refused {s : String} {f : Failure}
    (h : OrderTerm.listOfValue (.text s) = .error f) :
    ∃ g, f = .ofFault g ∧ g.category = .validation := by
  have hpiece : ∀ piece f, OrderTerm.ofPiece piece = .error f →
      ∃ g, f = .ofFault g ∧ g.category = .validation := by
    intro piece f hf
    unfold OrderTerm.ofPiece at hf
    split at hf
    · cases hf
    · cases hf
      exact ⟨_, rfl, rfl⟩
  unfold OrderTerm.listOfValue at h
  dsimp only at h
  split at h
  · obtain ⟨piece, -, hf⟩ := exists_of_mapM_error h
    exact hpiece piece f hf
  · cases h
    exact ⟨_, rfl, rfl⟩

/-- An ordering is accepted just if the grammar has it and is then written as the grammar says, with
a term more than there are commas; any other text is refused as invalid. The grammar has a piece
just if the pattern of a term fits it, whichever way the pattern divides it. -/
theorem listOfValue_accepts_grammar (s : String) :
    (∀ out, (∃ terms, OrderTerm.listOfValue (.text s) = .ok terms ∧
      Fragment.render (OrderTerm.listFragments terms) = out) ↔ WritesText s.toList out) ∧
    (∀ terms, OrderTerm.listOfValue (.text s) = .ok terms →
      terms.length = s.toList.count ',' + 1) ∧
    ((¬ ∃ out, WritesText s.toList out) →
      ∃ g, OrderTerm.listOfValue (.text s) = .error (.ofFault g) ∧ g.category = .validation) ∧
    ∀ piece out, WritesPiece piece out ↔ ∃ name word, Fits piece name word ∧
      out = '`' :: name ++ ['`'] ++ (word.map fun w => ' ' :: w.map Char.toUpper).getD [] := by
  refine ⟨fun out => accepted_iff, fun terms h => ?_, fun hnone => ?_,
    fun _ _ => writesPiece_iff_fits⟩
  · have hlength := (mapM_ok.mp (listOfValue_ok.mp h).2).length_eq
    rw [← hlength, length_splitOn]
  · cases hresult : OrderTerm.listOfValue (.text s) with
    | error f =>
      obtain ⟨g, rfl, hcategory⟩ := category_of_refused hresult
      exact ⟨g, rfl, hcategory⟩
    | ok terms => exact absurd ⟨_, accepted_iff.mp ⟨terms, hresult, rfl⟩⟩ hnone

/-! ## What is asked for -/

def directionOf (word : List Char) : Direction :=
  if word.map Char.toUpper = "ASC".toList then .ascending else .descending

def termOf? (piece : List Char) : Option (String × Option Direction) :=
  match Blank.words piece with
  | [name] => some (String.ofList name, none)
  | [name, word] => some (String.ofList name, some (directionOf word))
  | _ => none

def orderOf (text : String) : List (String × Option Direction) :=
  (splitOn ',' text.toList).filterMap termOf?

/-- A column and a direction that a piece asks for, as the pattern of a term divides it. -/
inductive AsksFor (piece : List Char) : String × Option Direction → Prop
  | column {name : List Char} : Fits piece name none → AsksFor piece (String.ofList name, none)
  | ascending {name word : List Char} : Fits piece name (some word) →
      word.map Char.toUpper = "ASC".toList → AsksFor piece (String.ofList name, some .ascending)
  | descending {name word : List Char} : Fits piece name (some word) →
      word.map Char.toUpper = "DESC".toList → AsksFor piece (String.ofList name, some .descending)

/-- What an ordering text asks for: a column with or without a direction between each two commas. -/
def Asks (text : List Char) (terms : List (String × Option Direction)) : Prop :=
  ∃ pieces, pieces ≠ [] ∧ (∀ piece ∈ pieces, ',' ∉ piece) ∧ text = joinWith [','] pieces ∧
    List.Forall₂ AsksFor pieces terms

private theorem directionOf_of_capitals {word : List Char} {d : Direction}
    (h : word.map Char.toUpper = capitals d) : directionOf word = d := by
  rw [directionOf, h]
  cases d <;> decide

private theorem termOf?_of_one {piece name : List Char} (h : Blank.words piece = [name]) :
    termOf? piece = some (String.ofList name, none) := by
  rw [termOf?, h]

private theorem termOf?_of_two {piece name word : List Char}
    (h : Blank.words piece = [name, word]) :
    termOf? piece = some (String.ofList name, some (directionOf word)) := by
  rw [termOf?, h]

private theorem termOf?_of_ok {piece : List Char} {t : OrderTerm}
    (hallowed : ∀ c ∈ piece, OrderTerm.isAllowed c = true) (hcomma : ',' ∉ piece)
    (h : OrderTerm.ofPiece piece = .ok t) :
    termOf? piece = some (t.column.text, t.direction) ∧
      AsksFor piece (t.column.text, t.direction) := by
  have hnames := isNameChar_of_words hallowed hcomma
  have hsplit := splitsInto_words piece
  have hwords := ofPiece_ok.mp h
  unfold OrderTerm.ofWords? at hwords
  split at hwords
  · rename_i name hpiece
    obtain ⟨n, hn, rfl⟩ := Option.map_eq_some_iff.mp hwords
    obtain ⟨hname, rfl⟩ := chars?_eq_some.mp hn
    rw [hpiece] at hsplit
    exact ⟨termOf?_of_one hpiece, .column (fits_iff.mpr ⟨hname, nofun, hsplit⟩)⟩
  · rename_i name word hpiece
    obtain ⟨n, hn, hwords⟩ := Option.bind_eq_some_iff.mp hwords
    obtain ⟨d, hdir, rfl⟩ := Option.map_eq_some_iff.mp hwords
    obtain ⟨hname, rfl⟩ := chars?_eq_some.mp hn
    rw [hpiece] at hsplit hnames
    have hd := (directionOf?_eq_some (hnames word (by simp))).mp hdir
    have hfits : Fits piece n.chars (some word) :=
      fits_iff.mpr ⟨hname, by simpa using isDirection_iff.mpr ⟨d, hd⟩, hsplit⟩
    rw [termOf?_of_two hpiece, directionOf_of_capitals hd]
    cases d with
    | ascending => exact ⟨rfl, .ascending hfits hd⟩
    | descending => exact ⟨rfl, .descending hfits hd⟩
  · cases hwords

theorem orderOf_of_ok {s : String} {terms : List OrderTerm}
    (h : OrderTerm.listOfValue (.text s) = .ok terms) :
    terms ≠ [] ∧ terms.map (fun t => (t.column.text, t.direction)) = orderOf s ∧
      Asks s.toList (orderOf s) := by
  obtain ⟨hallowed, hterms⟩ := listOfValue_ok.mp h
  have hpieces := allowed_of_mem_splitOn hallowed
  have hall : ∀ {pieces : List (List Char)} {terms : List OrderTerm},
      (∀ piece ∈ pieces, (∀ c ∈ piece, OrderTerm.isAllowed c = true) ∧ ',' ∉ piece) →
      List.Forall₂ (fun piece t => OrderTerm.ofPiece piece = .ok t) pieces terms →
      terms.map (fun t => (t.column.text, t.direction)) = pieces.filterMap termOf? ∧
        List.Forall₂ AsksFor pieces (pieces.filterMap termOf?) := by
    intro pieces terms hpieces hterms
    induction hterms with
    | nil => exact ⟨rfl, .nil⟩
    | cons ht _ ih =>
      obtain ⟨⟨hallowed, hcomma⟩, hrest⟩ := List.forall_mem_cons.mp hpieces
      obtain ⟨hterm, hasks⟩ := termOf?_of_ok hallowed hcomma ht
      obtain ⟨hmap, hforall⟩ := ih hrest
      rw [List.filterMap_cons_some hterm, List.map_cons, hmap]
      exact ⟨rfl, .cons hasks hforall⟩
  obtain ⟨hmap, hforall⟩ := hall hpieces (mapM_ok.mp hterms)
  have hne : terms ≠ [] := by
    rintro rfl
    have hlength := (mapM_ok.mp hterms).length_eq
    exact splitOn_ne_nil ',' s.toList (List.length_eq_zero_iff.mp hlength)
  exact ⟨hne, hmap, splitOn ',' s.toList, splitOn_ne_nil ',' s.toList, not_mem_of_mem_splitOn,
    (joinWith_splitOn ',' s.toList).symm, hforall⟩

/-- A direction that stands alone is a column. -/
example : (OrderTerm.listOfValue (.text "desc,asc\tdEsc")).map OrderTerm.listFragments =
    .ok [.name ⟨"desc".toList, by decide⟩, .words ", ", .name ⟨"asc".toList, by decide⟩,
      .words " DESC"] := by
  rfl

end QueryGateway.Proofs.Plan.Orderings
