import QueryGateway.Proofs.Plan.Clauses
import QueryGateway.Proofs.Sql.Segments
import QueryGateway.Proofs.Sql.TypeTexts

/-!
Definitions of columns, read back by clauses. The reader takes clauses in any order and any number,
so that a clause hidden in a default or in a comment would count. It finds the name, the type and
the clauses that the column was given, and no others, so a column is known from its definition.
-/

set_option autoImplicit false
set_option relaxedAutoImplicit false

namespace QueryGateway.Proofs.Plan.Columns

open QueryGateway.Sql
open QueryGateway.Proofs.Plan.Clauses
open QueryGateway.Proofs.Plan.Schema
open QueryGateway.Proofs.Sql.Lexical
open QueryGateway.Proofs.Sql.Names
open QueryGateway.Proofs.Sql.Outside (spells)
open QueryGateway.Proofs.Sql.Segments
open QueryGateway.Proofs.Sql.Spelling
open QueryGateway.Proofs.Sql.TypeForms
open QueryGateway.Proofs.Sql.TypeTexts
open QueryGateway.Proofs.Sql.Words
open QueryGateway.Proofs.Success
open QueryGateway.Proofs.Text.Runs (takeWhile_parted dropWhile_parted)

/-! ## Reading -/

/-- What a definition says of a column behind its type. -/
inductive Clause
  | nullable (allowed : Bool)
  | default (value : Fragment)
  | numbered
  | comment (content : List Char)
  deriving DecidableEq, Repr

def clauseWords : List String := ["null", "not", "default", "auto_increment", "comment"]

def operand? : List Piece → Option Fragment
  | [.quoted '\'' content] => some (.literal content)
  | ps => (bareText? ps).map fun w => .words (String.ofList w)

def quotation? : List Piece → Option (List Char)
  | [.quoted '\'' content] => some content
  | _ => none

def short? (s : List Piece) : Option Clause :=
  if isKeyword ["null"] s then some (.nullable true)
  else if isKeyword ["auto_increment"] s then some .numbered
  else none

def long? (s t : List Piece) : Option Clause :=
  if isKeyword ["not"] s && isKeyword ["null"] t then some (.nullable false)
  else if isKeyword ["default"] s then (operand? t).map .default
  else if isKeyword ["comment"] s then (quotation? t).map .comment
  else none

/-- The clauses that segments are, in any order. The value behind a keyword is no clause by
itself. -/
def clauses? : List (List Piece) → Option (List Clause)
  | [] => some []
  | [s] => (short? s).map fun c => [c]
  | s :: t :: rest =>
    match short? s with
    | some c => (clauses? (t :: rest)).map (c :: ·)
    | none => (long? s t).bind fun c => (clauses? rest).map (c :: ·)

/-- A definition of a column as the server reads it. -/
structure Definition where
  name : List Char
  type : List Char
  clauses : List Clause
  deriving DecidableEq, Repr

/-- The definition that segments are: a name, a type up to the first keyword of a clause, and
clauses. -/
def ofSegments? : List (List Piece) → Option Definition
  | [.quoted '`' name] :: ss =>
    (clauses? (ss.dropWhile fun s => !isKeyword clauseWords s)).map fun clauses =>
      { name := name
        type := textOf (ss.takeWhile fun s => !isKeyword clauseWords s)
        clauses := clauses }
  | _ => none

def read? (dashes : List Char → Bool) (sql : List Char) : Option Definition :=
  (pieces? dashes sql).bind fun ps => ofSegments? (segments ps)

/-! ## Clauses -/

def word (keyword : String) : List Piece := bare keyword.toList

def Clause.segments : Clause → List (List Piece)
  | .nullable true => [word "NULL"]
  | .nullable false => [word "NOT", word "NULL"]
  | .default f => [word "DEFAULT", piecesOf f]
  | .numbered => [word "AUTO_INCREMENT"]
  | .comment content => [word "COMMENT", [.quoted '\'' content]]

def Clause.IsRead : Clause → Prop
  | .default f => IsSegment (piecesOf f) ∧ operand? (piecesOf f) = some f
  | _ => True

variable {c : Clause} {cs : List Clause} {s t : List Piece}

private theorem clauses?_short (h : short? s = some c) (rest : List (List Piece)) :
    clauses? (s :: rest) = (clauses? rest).map (c :: ·) := by
  cases rest with
  | nil =>
    have hlone : clauses? [s] = (short? s).map fun c => [c] := rfl
    rw [hlone, h]
    rfl
  | cons t rest => rw [clauses?, h]

private theorem clauses?_long (h : short? s = none) (hlong : long? s t = some c)
    (rest : List (List Piece)) :
    clauses? (s :: t :: rest) = (clauses? rest).map (c :: ·) := by
  rw [clauses?, h]
  simp only [hlong, Option.bind_some]

private theorem clauses?_segments (h : c.IsRead) (rest : List (List Piece)) :
    clauses? (c.segments ++ rest) = (clauses? rest).map (c :: ·) := by
  match c, h with
  | .nullable true, _ => exact clauses?_short (by decide) rest
  | .nullable false, _ => exact clauses?_long (by decide) (by decide) rest
  | .numbered, _ => exact clauses?_short (by decide) rest
  | .default f, h =>
    have hnot : isKeyword ["not"] (word "DEFAULT") = false := by decide
    have hkeyword : isKeyword ["default"] (word "DEFAULT") = true := by decide
    refine clauses?_long (by decide) ?_ rest
    simp [long?, hnot, hkeyword, h.2]
  | .comment content, _ =>
    have hnot : isKeyword ["not"] (word "COMMENT") = false := by decide
    have hother : isKeyword ["default"] (word "COMMENT") = false := by decide
    have hkeyword : isKeyword ["comment"] (word "COMMENT") = true := by decide
    refine clauses?_long (by decide) ?_ rest
    simp [long?, hnot, hother, hkeyword, quotation?]

private theorem clauses?_flatMap (h : ∀ c ∈ cs, c.IsRead) :
    clauses? (cs.flatMap Clause.segments) = some cs := by
  induction cs with
  | nil => rfl
  | cons c cs ih =>
    obtain ⟨hc, hcs⟩ := List.forall_mem_cons.mp h
    rw [List.flatMap_cons, clauses?_segments hc, ih hcs]
    rfl

private theorem isSegment_clause (h : c.IsRead) : ∀ s ∈ c.segments, IsSegment s := by
  match c, h with
  | .nullable true, _ => exact List.forall_mem_singleton.mpr (isSegment_bare (by decide))
  | .nullable false, _ =>
    exact List.forall_mem_cons.mpr ⟨isSegment_bare (by decide),
      List.forall_mem_singleton.mpr (isSegment_bare (by decide))⟩
  | .numbered, _ => exact List.forall_mem_singleton.mpr (isSegment_bare (by decide))
  | .default f, h =>
    exact List.forall_mem_cons.mpr ⟨isSegment_bare (by decide),
      List.forall_mem_singleton.mpr h.1⟩
  | .comment content, _ =>
    exact List.forall_mem_cons.mpr ⟨isSegment_bare (by decide),
      List.forall_mem_singleton.mpr (isSegment_quoted '\'' content)⟩

private theorem isKeyword_head (cs : List Clause) :
    ∀ s ∈ (cs.flatMap Clause.segments).head?, isKeyword clauseWords s = true := by
  match cs with
  | [] => nofun
  | .nullable true :: _ => rintro _ ⟨⟩; decide
  | .nullable false :: _ => rintro _ ⟨⟩; decide
  | .default _ :: _ => rintro _ ⟨⟩; decide
  | .numbered :: _ => rintro _ ⟨⟩; decide
  | .comment _ :: _ => rintro _ ⟨⟩; decide

/-! ## Types -/

private theorem isKeyword_typeSegments {type : ColumnType} (h : Formed type) :
    ∀ s ∈ typeSegments type, isKeyword clauseWords s = false := by
  have hwords : clauseWords.all (fun k => !k.toList.contains '(') = true := by decide
  cases h with
  | @plain base size modifiers hbase _ _ hmodifiers =>
    refine List.forall_mem_cons.mpr ⟨?_, fun s hs => ?_⟩
    · by_cases hsize : size = []
      · have hbases : ∀ base ∈ ColumnType.plainBases, spells clauseWords base.toList = false := by
          decide
        rw [hsize, isKeyword_bare]
        simpa [sizeChars] using hbases base hbase
      · refine isKeyword_of_parenthesis hwords ?_
        simp [sizeChars, hsize, bare]
    · have hspellings : ∀ m ∈ spellings "unsigned" ++ spellings "zerofill",
          spells clauseWords m = false := by decide
      obtain ⟨m, hm, rfl⟩ := List.mem_map.mp hs
      rw [isKeyword_bare]
      exact hspellings m (List.mem_append.mpr (hmodifiers m hm))
  | choice _ _ _ =>
    exact List.forall_mem_singleton.mpr (isKeyword_of_parenthesis hwords (by simp))

private theorem ofSegments?_segments {type : ColumnType} (htype : Formed type)
    (hcs : ∀ c ∈ cs, c.IsRead) (name : List Char) :
    ofSegments? ([.quoted '`' name] :: (typeSegments type ++ cs.flatMap Clause.segments)) =
      some ⟨name, type.chars, cs⟩ := by
  have hfront : ∀ s ∈ typeSegments type, (!isKeyword clauseWords s) = true :=
    fun s hs => by rw [isKeyword_typeSegments htype s hs]; rfl
  have hback : ∀ s ∈ (cs.flatMap Clause.segments).head?, (!isKeyword clauseWords s) = false :=
    fun s hs => by rw [isKeyword_head cs s hs]; rfl
  rw [ofSegments?, takeWhile_parted hfront hback, dropWhile_parted hfront hback,
    textOf_typeSegments, clauses?_flatMap hcs]
  rfl

/-! ## Definitions -/

def rendered? (default : Option Value) : Option Fragment :=
  default.bind fun v => (Default.ofValue v).toOption

def clausesOf (nullable : Option Bool) (default : Option Fragment) (auto : Bool)
    (comment : Option (List Char)) : List Clause :=
  (nullable.map Clause.nullable).toList ++ (default.map Clause.default).toList ++
    (if auto then [.numbered] else []) ++ (comment.map Clause.comment).toList

def stated (spec : ColumnSpec) : List Clause :=
  clausesOf spec.nullable (rendered? spec.default) spec.autoIncrement
    (spec.comment.map String.toList)

private theorem operand?_bare (w : List Char) :
    operand? (bare w) = some (.words (String.ofList w)) := by
  have hbare : operand? (bare w) = (bareText? (bare w)).map fun w => .words (String.ofList w) := by
    unfold operand?
    split
    · rename_i heq
      cases w <;> cases heq
    · rfl
  rw [hbare, bareText?_bare]
  rfl

private theorem piecesOf_words {s : String} (h : isCalm s.toList = true) :
    piecesOf (.words s) = bare s.toList := by
  rw [piecesOf, (reads_of_isCalm h).eq, Option.getD_some]
  rfl

private theorem isRead_default {v : Value} {f : Fragment} (h : Default.ofValue v = .ok f) :
    (Clause.default f).IsRead := by
  rcases unquoted_or_literal h with ⟨w, hw, rfl⟩ | ⟨content, rfl⟩
  · have hpieces : piecesOf (.words (String.ofList w)) = bare w := by
      rw [piecesOf_words (by simpa using hw.isCalm), String.toList_ofList]
    rw [Clause.IsRead, hpieces]
    exact ⟨isSegment_unquoted hw, operand?_bare w⟩
  · exact ⟨isSegment_quoted '\'' content, rfl⟩

private theorem pieces_nullability (nullable : Option Bool) :
    (ColumnSpec.nullability nullable).flatMap piecesOf =
      spaced ((nullable.map Clause.nullable).toList.flatMap Clause.segments) := by
  match nullable with
  | none => rfl
  | some true => decide
  | some false => decide

private theorem rendered?_some {v : Value} {f : Fragment} (h : Default.ofValue v = .ok f) :
    rendered? (some v) = some f := by
  rw [rendered?, Option.bind_some, h]
  rfl

private theorem map_ofValue {default : Option Value} {fs : List Fragment}
    (h : ColumnSpec.defaultClause default = .ok fs) :
    default.map Default.ofValue = (rendered? default).map .ok := by
  rcases defaultClause_ok h with ⟨rfl, rfl⟩ | ⟨v, f, rfl, hf, rfl⟩
  · rfl
  · rw [rendered?_some hf, Option.map_some, hf]
    rfl

private theorem isRead_rendered? {default : Option Value} {fs : List Fragment}
    (h : ColumnSpec.defaultClause default = .ok fs) :
    ∀ f ∈ rendered? default, (Clause.default f).IsRead := by
  rcases defaultClause_ok h with ⟨rfl, rfl⟩ | ⟨v, f, rfl, hf, rfl⟩
  · nofun
  · rw [rendered?_some hf]
    rintro _ ⟨⟩
    exact isRead_default hf

private theorem pieces_defaultClause {default : Option Value} {fs : List Fragment}
    (h : ColumnSpec.defaultClause default = .ok fs) :
    fs.flatMap piecesOf =
      spaced (((rendered? default).map Clause.default).toList.flatMap Clause.segments) := by
  rcases defaultClause_ok h with ⟨rfl, rfl⟩ | ⟨v, f, rfl, hf, rfl⟩
  · rfl
  · have hkeyword : piecesOf (.words " DEFAULT ") = .bare ' ' :: (word "DEFAULT" ++ [.bare ' ']) :=
      piecesOf_words rfl
    rw [rendered?_some hf]
    simp [hkeyword, spaced, Clause.segments]

private theorem pieces_numbering (auto : Bool) :
    (numbering auto).flatMap piecesOf =
      spaced ((if auto then [Clause.numbered] else []).flatMap Clause.segments) := by
  cases auto with
  | false => rfl
  | true => decide

private theorem pieces_commentClause {comment : Option String} {fs : List Fragment}
    (h : ColumnSpec.commentClause comment = .ok fs) :
    fs.flatMap piecesOf = spaced
      (((comment.map String.toList).map Clause.comment).toList.flatMap Clause.segments) := by
  rcases commentClause_ok h with ⟨rfl, rfl⟩ | ⟨s, rfl, rfl⟩
  · rfl
  · have hkeyword : piecesOf (.words " COMMENT ") = .bare ' ' :: (word "COMMENT" ++ [.bare ' ']) :=
      piecesOf_words rfl
    have hliteral : piecesOf (.literal s.toList) = [.quoted '\'' s.toList] := rfl
    simp [hkeyword, hliteral, spaced, Clause.segments]

private theorem pieces_type {type : ColumnType} (h : Formed type) :
    piecesOf (.words (" " ++ type.text)) = spaced (typeSegments type) := by
  rw [piecesOf, (reads_spaced (writable_of_spelled h.spelled)).eq, Option.getD_some,
    spaced_typeSegments]

private theorem define_name {name : Value} {spec : ColumnSpec} {fs : List Fragment}
    (h : spec.define name = .ok fs) : ∃ n, name = .text n := by
  simp only [ColumnSpec.define, bind_ok] at h
  obtain ⟨n, hn, _⟩ := h
  unfold Name.ofValue at hn
  split at hn
  · exact ⟨_, rfl⟩
  · cases hn

private theorem isRead_stated {spec : ColumnSpec} {fs : List Fragment}
    (h : ColumnSpec.defaultClause spec.default = .ok fs) : ∀ c ∈ stated spec, c.IsRead := by
  intro c hc
  simp only [stated, clausesOf, List.mem_append] at hc
  rcases hc with ((hc | hc) | hc) | hc
  · obtain ⟨allowed, _, rfl⟩ := Option.map_eq_some_iff.mp (Option.mem_toList.mp hc)
    trivial
  · obtain ⟨f, hf, rfl⟩ := Option.map_eq_some_iff.mp (Option.mem_toList.mp hc)
    exact isRead_rendered? h f hf
  · split at hc
    · rw [List.mem_singleton.mp hc]
      trivial
    · cases hc
  · obtain ⟨content, _, rfl⟩ := Option.map_eq_some_iff.mp (Option.mem_toList.mp hc)
    trivial

private theorem pieces_defining {spec : ColumnSpec} {type : ColumnType}
    {default comment : List Fragment} (n : Name) (htype : Formed type)
    (hdefault : ColumnSpec.defaultClause spec.default = .ok default)
    (hcomment : ColumnSpec.commentClause spec.comment = .ok comment) :
    (defining n type spec.nullable default spec.autoIncrement comment).flatMap piecesOf =
      [.quoted '`' n.chars] ++
        spaced (typeSegments type ++ (stated spec).flatMap Clause.segments) := by
  simp only [defining, stated, clausesOf, List.flatMap_append, List.flatMap_cons,
    List.flatMap_nil, pieces_nullability, pieces_defaultClause hdefault, pieces_numbering,
    pieces_commentClause hcomment, pieces_type htype, spaced_append, List.append_assoc,
    List.append_nil]
  rfl

private theorem isSegment_parts {type : ColumnType} (htype : Formed type)
    (hcs : ∀ c ∈ cs, c.IsRead) :
    ∀ s ∈ typeSegments type ++ cs.flatMap Clause.segments, IsSegment s := by
  refine List.forall_mem_append.mpr ⟨isSegment_type htype, fun s hs => ?_⟩
  obtain ⟨c, hc, hs⟩ := List.mem_flatMap.mp hs
  exact isSegment_clause (hcs c hc) s hs

private theorem read?_define {column : String} {spec : ColumnSpec} {fs : List Fragment}
    (h : spec.define (.text column) = .ok fs) :
    ∃ type, ColumnType.ofValue (.text spec.type) = .ok type ∧ Formed type ∧
      spec.default.map Default.ofValue = (rendered? spec.default).map .ok ∧
      ∀ dashes, read? dashes (Fragment.render fs) =
        some ⟨column.toList, type.chars, stated spec⟩ := by
  have horderly := (legible_define h).orderly
  obtain ⟨n, type, default, comment, rfl, htype, hdefault, hcomment, rfl⟩ := define_ok h
  have hformed := (of_ofChars? (ofValue_eq_ok_iff.mp htype)).1
  have hclauses := isRead_stated hdefault
  refine ⟨type, htype, hformed, map_ofValue hdefault, fun dashes => ?_⟩
  rw [read?, pieces?_render horderly, Option.bind_some,
    pieces_defining n hformed hdefault hcomment,
    segments_spaced (isSegment_quoted '`' n.chars) (isSegment_parts hformed hclauses),
    ofSegments?_segments hformed hclauses, toList_text]

/-! ## Columns and their definitions -/

def Clause.nullable? : Clause → Option Bool
  | .nullable allowed => some allowed
  | _ => none

def Clause.default? : Clause → Option Fragment
  | .default value => some value
  | _ => none

def Clause.comment? : Clause → Option (List Char)
  | .comment content => some content
  | _ => none

private theorem find_clausesOf (nullable : Option Bool) (default : Option Fragment) (auto : Bool)
    (comment : Option (List Char)) :
    (clausesOf nullable default auto comment).findSome? Clause.nullable? = nullable ∧
      (clausesOf nullable default auto comment).findSome? Clause.default? = default ∧
      (clausesOf nullable default auto comment).contains .numbered = auto ∧
      (clausesOf nullable default auto comment).findSome? Clause.comment? = comment := by
  cases nullable <;> cases default <;> cases auto <;> cases comment <;> exact ⟨rfl, rfl, rfl, rfl⟩

/-- Columns that agree in all that a definition says of them. -/
structure Agree (spec spec' : ColumnSpec) : Prop where
  type : ColumnType.ofValue (.text spec.type) = ColumnType.ofValue (.text spec'.type)
  nullable : spec.nullable = spec'.nullable
  default : spec.default.map Default.ofValue = spec'.default.map Default.ofValue
  autoIncrement : spec.autoIncrement = spec'.autoIncrement
  comment : spec.comment = spec'.comment

private theorem defaultClause_congr {default default' : Option Value}
    (h : default.map Default.ofValue = default'.map Default.ofValue) :
    ColumnSpec.defaultClause default = ColumnSpec.defaultClause default' := by
  cases default with
  | none =>
    cases default' with
    | none => rfl
    | some v' => cases h
  | some v =>
    cases default' with
    | none => cases h
    | some v' =>
      have hvalue : Default.ofValue v = Default.ofValue v' := Option.some.inj h
      rw [ColumnSpec.defaultClause, ColumnSpec.defaultClause, hvalue]

private theorem Agree.define_eq {spec spec' : ColumnSpec} (h : Agree spec spec') (name : Value) :
    spec.define name = spec'.define name := by
  rw [ColumnSpec.define, ColumnSpec.define, h.type, h.nullable, defaultClause_congr h.default,
    h.autoIncrement, h.comment]

private theorem stated_injective {spec spec' : ColumnSpec} (h : stated spec = stated spec') :
    spec.nullable = spec'.nullable ∧ rendered? spec.default = rendered? spec'.default ∧
      spec.autoIncrement = spec'.autoIncrement ∧ spec.comment = spec'.comment := by
  obtain ⟨hnullable, hdefault, hauto, hcomment⟩ := find_clausesOf spec.nullable
    (rendered? spec.default) spec.autoIncrement (spec.comment.map String.toList)
  obtain ⟨hnullable', hdefault', hauto', hcomment'⟩ := find_clausesOf spec'.nullable
    (rendered? spec'.default) spec'.autoIncrement (spec'.comment.map String.toList)
  have heq : clausesOf spec.nullable (rendered? spec.default) spec.autoIncrement
      (spec.comment.map String.toList) = clausesOf spec'.nullable (rendered? spec'.default)
        spec'.autoIncrement (spec'.comment.map String.toList) := h
  rw [heq] at hnullable hdefault hauto hcomment
  refine ⟨hnullable.symm.trans hnullable', hdefault.symm.trans hdefault', hauto.symm.trans hauto',
    ?_⟩
  exact Option.map_injective (fun _ _ => String.toList_injective) (hcomment.symm.trans hcomment')

private theorem agree_of_text_eq {column column' : String} {spec spec' : ColumnSpec}
    {fs fs' : List Fragment} (h : spec.define (.text column) = .ok fs)
    (h' : spec'.define (.text column') = .ok fs') (heq : Fragment.text fs = Fragment.text fs') :
    column = column' ∧ Agree spec spec' := by
  obtain ⟨type, htype, hformed, hdefault, hread⟩ := read?_define h
  obtain ⟨type', htype', hformed', hdefault', hread'⟩ := read?_define h'
  have hrender : Fragment.render fs = Fragment.render fs' := String.ofList_injective heq
  -- One text has one reading, so both columns are in it.
  have hboth := hread fun _ => true
  rw [hrender, hread' fun _ => true] at hboth
  obtain ⟨hname, hchars, hstated⟩ := Definition.mk.inj (Option.some.inj hboth)
  obtain ⟨hnullable, hrendered, hauto, hcomment⟩ := stated_injective hstated.symm
  have htypes : type = type' := by
    have hback := ofChars?_chars hformed
    rw [← hchars, ofChars?_chars hformed'] at hback
    exact (Option.some.inj hback).symm
  refine ⟨String.toList_injective hname.symm, ?_, hnullable, ?_, hauto, hcomment⟩
  · rw [htype, htype', htypes]
  · rw [hdefault, hdefault', hrendered]

/-- A definition of a column is read as the name, the type and the clauses that the column was
given, and no other column has a definition of the same text. -/
theorem define_determines {name : Value} {spec : ColumnSpec} {fs : List Fragment}
    (h : spec.define name = .ok fs) :
    (∃ column type, name = .text column ∧ ColumnType.ofValue (.text spec.type) = .ok type ∧
      ∀ dashes, read? dashes (Fragment.render fs) =
        some ⟨column.toList, type.chars, stated spec⟩) ∧
      ∀ name' spec' fs', spec'.define name' = .ok fs' →
        (Fragment.text fs' = Fragment.text fs ↔ name' = name ∧ Agree spec' spec) := by
  obtain ⟨column, rfl⟩ := define_name h
  obtain ⟨type, htype, _, _, hread⟩ := read?_define h
  refine ⟨⟨column, type, rfl, htype, hread⟩, fun name' spec' fs' h' => ⟨fun heq => ?_, ?_⟩⟩
  · obtain ⟨column', rfl⟩ := define_name h'
    obtain ⟨rfl, hagree⟩ := agree_of_text_eq h' h heq
    exact ⟨rfl, hagree⟩
  · rintro ⟨rfl, hagree⟩
    rw [hagree.define_eq, h] at h'
    cases h'
    rfl

/-- A column whose default and comment are made to look like other clauses. -/
def disguised : ColumnSpec where
  type := "set('a','NOT NULL')"
  nullable := some false
  default := some (.text "NULL")
  comment := some "x' AUTO_INCREMENT COMMENT '\\"

/-- The text NULL as a default stays a text, and the comment stays one comment. -/
theorem define_determines_disguised :
    ∃ fs fs', disguised.define (.text "kind") = .ok fs ∧
      { disguised with default := some .null }.define (.text "kind") = .ok fs' ∧
      (∀ dashes, read? dashes (Fragment.render fs) =
        some ⟨"kind".toList, "SET('a','NOT NULL')".toList,
          [.nullable false, .default (.literal "NULL".toList),
            .comment "x' AUTO_INCREMENT COMMENT '\\".toList]⟩) ∧
      Fragment.text fs' ≠ Fragment.text fs := by
  obtain ⟨fs, hfs⟩ : ∃ fs, disguised.define (.text "kind") = .ok fs := ⟨_, rfl⟩
  obtain ⟨fs', hfs'⟩ : ∃ fs',
      { disguised with default := some .null }.define (.text "kind") = .ok fs' := ⟨_, rfl⟩
  obtain ⟨⟨column, type, hname, htype, hread⟩, hunique⟩ := define_determines hfs
  refine ⟨fs, fs', hfs, hfs', fun dashes => ?_, fun heq => ?_⟩
  · cases hname
    cases htype
    exact hread dashes
  · have hnull : Default.ofValue .null = .ok (.words "NULL") := rfl
    have htext : Default.ofValue (.text "NULL") = .ok (.literal "NULL".toList) := rfl
    have hdefault := Option.some.inj ((hunique _ _ _ hfs').mp heq).2.default
    rw [hnull, htext] at hdefault
    cases hdefault

end QueryGateway.Proofs.Plan.Columns
