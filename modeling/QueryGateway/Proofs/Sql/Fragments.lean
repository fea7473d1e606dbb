import QueryGateway.Proofs.Sql.Lexical

/-!
Fragments in a row: the names among them, and what is left of them without their names.
-/

set_option autoImplicit false
set_option relaxedAutoImplicit false

namespace QueryGateway.Proofs.Sql.Fragments

open QueryGateway.Sql
open QueryGateway.Proofs.Sql.Names
open QueryGateway.Proofs.Sql.Lexical

def name? : Fragment → Option Name
  | .name n => some n
  | _ => none

def namesIn (fs : List Fragment) : List Name := fs.filterMap name?

def anyName : Name := ⟨['x'], rfl⟩

def veil : Fragment → Fragment
  | .name _ => .name anyName
  | f => f

/-- Fragments with their names kept secret. -/
def outline (fs : List Fragment) : List Fragment := fs.map veil

/-! ## Order -/

theorem isPlain_of_check {s : String} (h : (!s.toList.isEmpty && isCalm s.toList) = true) :
    IsPlain s := by
  obtain ⟨hne, hcalm⟩ := Bool.and_eq_true_iff.mp h
  exact isPlain_of_isCalm (by simpa using hne) hcalm

private theorem sound_of_orderly {fs : List Fragment} (h : Orderly fs) : ∀ f ∈ fs, Sound f := by
  induction fs with
  | nil => nofun
  | cons f fs ih => exact List.forall_mem_cons.mpr ⟨h.1, ih h.2.2⟩

theorem orderly_append {fs gs : List Fragment} (hf : Orderly fs) (hg : Orderly gs)
    (hstart : startsQuoted gs = false) : Orderly (fs ++ gs) := by
  induction fs with
  | nil => exact hg
  | cons f fs ih =>
    obtain ⟨hsound, hnext, hfs⟩ := hf
    refine ⟨hsound, fun hq => ?_, ih hfs⟩
    cases fs with
    | nil => exact hstart
    | cons g fs => exact hnext hq

/-! ## Names -/

@[simp]
private theorem namesIn_nil : namesIn [] = [] := rfl

@[simp]
private theorem namesIn_name (n : Name) (fs : List Fragment) :
    namesIn (.name n :: fs) = n :: namesIn fs :=
  rfl

@[simp]
private theorem namesIn_words (s : String) (fs : List Fragment) :
    namesIn (.words s :: fs) = namesIn fs :=
  rfl

@[simp]
private theorem namesIn_mark (fs : List Fragment) : namesIn (.mark :: fs) = namesIn fs := rfl

@[simp]
private theorem namesIn_literal (content : List Char) (fs : List Fragment) :
    namesIn (.literal content :: fs) = namesIn fs := rfl

@[simp]
theorem namesIn_append (fs gs : List Fragment) : namesIn (fs ++ gs) = namesIn fs ++ namesIn gs :=
  List.filterMap_append

@[simp]
private theorem namesIn_separated (sep : String) (parts : List (List Fragment)) :
    namesIn (Fragment.separated sep parts) = parts.flatMap namesIn := by
  induction parts with
  | nil => rfl
  | cons p parts ih =>
    cases parts with
    | nil => simp [Fragment.separated]
    | cons q parts =>
      rw [Fragment.separated, namesIn_append, namesIn_words, ih]
      simp only [List.flatMap_cons]

@[simp]
theorem namesIn_names (ns : List Name) : namesIn (Fragment.names ns) = ns := by
  rw [Fragment.names, namesIn_separated, List.flatMap_map]
  simp

@[simp]
private theorem namesIn_marks (count : Nat) : namesIn (Fragment.marks count) = [] := by
  simp [Fragment.marks, List.flatMap_replicate]

/-! ## Outlines -/

@[simp]
private theorem outline_nil : outline [] = [] := rfl

@[simp]
theorem outline_cons (f : Fragment) (fs : List Fragment) :
    outline (f :: fs) = veil f :: outline fs := rfl

@[simp]
theorem outline_append (fs gs : List Fragment) : outline (fs ++ gs) = outline fs ++ outline gs :=
  List.map_append

@[simp]
theorem veil_name (n : Name) : veil (.name n) = .name anyName := rfl

@[simp]
theorem outline_separated (sep : String) (parts : List (List Fragment)) :
    outline (Fragment.separated sep parts) = Fragment.separated sep (parts.map outline) := by
  induction parts with
  | nil => rfl
  | cons p parts ih =>
    cases parts with
    | nil => rfl
    | cons q parts =>
      rw [Fragment.separated, outline_append, outline_cons, ih]
      rfl

theorem outline_names_congr {ms ns : List Name} (h : ms.length = ns.length) :
    outline (Fragment.names ms) = outline (Fragment.names ns) := by
  have hparts : ∀ ks : List Name,
      (ks.map fun n => [Fragment.name n]).map outline =
        List.replicate ks.length [.name anyName] := by
    intro ks
    induction ks with
    | nil => rfl
    | cons k ks ih => rw [List.map_cons, List.map_cons, ih]; rfl
  rw [Fragment.names, Fragment.names, outline_separated, outline_separated, hparts, hparts, h]

/-! ## Well-closed texts -/

/-- A text that is cut into tame pieces by every rule about dashes and ends outside quotations, the
names in backticks being some given ones, all of them letters, digits and underscores. -/
def WellClosed (sql : List Char) (names : List String) : Prop :=
  ∃ ps, (∀ dashes, pieces? dashes sql = some ps) ∧ (∀ p ∈ ps, p.isTame = true) ∧
    ps.filterMap Piece.name? = names.map String.toList ∧ ∀ n ∈ names, isName n.toList = true

/-- A piece with its name, if it is one, kept secret. -/
def Piece.veiled : Piece → Piece
  | .quoted '`' _ => .quoted '`' []
  | p => p

/-- Texts that are cut into the same pieces apart from names. -/
def SameBesidesNames (s t : List Char) : Prop :=
  ∀ dashes,
    (pieces? dashes s).map (·.map Piece.veiled) = (pieces? dashes t).map (·.map Piece.veiled)

private theorem areTame_words {s : String} (h : IsPlain s) : AreTame (piecesOf (.words s)) := by
  obtain ⟨ps, hreads, htame⟩ := h.reads
  rwa [piecesOf, hreads.eq, Option.getD_some]

private theorem isTame_piecesOf {f : Fragment} (h : Sound f) :
    ∀ p ∈ piecesOf f, p.isTame = true := by
  cases f with
  | words s => exact fun p hp => (areTame_words h p hp).1
  | name n => exact List.forall_mem_singleton.mpr rfl
  | mark => exact List.forall_mem_singleton.mpr rfl
  | literal content => exact List.forall_mem_singleton.mpr rfl
  | raw s => exact h.elim

private theorem names_piecesOf {f : Fragment} (h : Sound f) :
    (piecesOf f).filterMap Piece.name? = (name? f).toList.map Name.chars := by
  cases f with
  | words s => exact List.filterMap_eq_nil_iff.mpr fun p hp => (areTame_words h p hp).2
  | name n => rfl
  | mark => rfl
  | literal content => rfl
  | raw s => exact h.elim

theorem wellClosed_render {fs : List Fragment} (h : Orderly fs) :
    WellClosed (Fragment.render fs) ((namesIn fs).map Name.text) := by
  refine ⟨fs.flatMap piecesOf, pieces?_render h, ?_, ?_, ?_⟩
  · intro p hp
    obtain ⟨f, hf, hp⟩ := List.mem_flatMap.mp hp
    exact isTame_piecesOf (sound_of_orderly h f hf) p hp
  · have hnames : (fs.flatMap piecesOf).filterMap Piece.name? = (namesIn fs).map Name.chars := by
      induction fs with
      | nil => rfl
      | cons f fs ih =>
        rw [List.flatMap_cons, List.filterMap_append, names_piecesOf h.1, ih h.2.2]
        cases f <;> rfl
    rw [hnames, List.map_map]
    exact List.map_congr_left fun n _ => (toList_text n).symm
  · intro n hn
    obtain ⟨m, _, rfl⟩ := List.mem_map.mp hn
    rw [toList_text]
    exact m.isName_chars

private theorem veiled_piecesOf (f : Fragment) :
    (piecesOf (veil f)).map Piece.veiled = (piecesOf f).map Piece.veiled := by
  cases f <;> rfl

theorem sameBesidesNames_render {fs gs : List Fragment} (hf : Orderly fs) (hg : Orderly gs)
    (h : outline fs = outline gs) :
    SameBesidesNames (Fragment.render fs) (Fragment.render gs) := by
  intro dashes
  rw [pieces?_render hf, pieces?_render hg, Option.map_some, Option.map_some]
  clear hf hg
  induction fs generalizing gs with
  | nil =>
    cases gs with
    | nil => rfl
    | cons g gs => cases h
  | cons f fs ih =>
    cases gs with
    | nil => cases h
    | cons g gs =>
      obtain ⟨hhead, htail⟩ := List.cons.inj h
      have hrest := Option.some.inj (ih htail)
      rw [List.flatMap_cons, List.flatMap_cons, List.map_append, List.map_append, hrest,
        ← veiled_piecesOf f, hhead, veiled_piecesOf g]

end QueryGateway.Proofs.Sql.Fragments
