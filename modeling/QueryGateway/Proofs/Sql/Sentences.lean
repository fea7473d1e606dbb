import QueryGateway.Proofs.Sql.Fragments
import QueryGateway.Proofs.Sql.Lexemes

/-!
Fragments that are read one by one: the server cuts their text into the pieces that they stand for,
and the text holds as many parameter marks as there are marks among them, whatever stands in names,
literals and types.
-/

set_option autoImplicit false
set_option relaxedAutoImplicit false

namespace QueryGateway.Proofs.Sql.Sentences

open QueryGateway.Sql
open QueryGateway.Proofs.Sql.Fragments
open QueryGateway.Proofs.Sql.Lexemes
open QueryGateway.Proofs.Sql.Lexical

/-- Words that are read by themselves in front of a break. -/
structure IsWording (s : String) : Prop where
  plain : IsPlain s
  lexed : ∀ rest, isParted rest = true → Lexed s.toList rest 0

/-- Words that are read by themselves, whatever follows them. -/
structure IsLead (s : String) : Prop where
  plain : IsPlain s
  lexed : ∀ rest, Lexed s.toList rest 0

/-- Fragments that are read one by one in front of a break. -/
structure Legible (fs : List Fragment) : Prop where
  orderly : Orderly fs
  lexed : ∀ rest, isParted rest = true → Lexed (Fragment.render fs) rest (fs.count .mark)

/-- Fragments that are read one by one and may follow any others. -/
structure Trails (fs : List Fragment) : Prop where
  legible : Legible fs
  apart : isParted (Fragment.render fs) = true

/-- Whether fixed words are read by themselves; closed ones are so whatever follows them. -/
def isReadable (closed : Bool) (s : String) : Bool :=
  !s.toList.isEmpty && isCalm s.toList && isClearFrom closed [] s.toList

theorem isWording_of_check {s : String} (h : isReadable false s = true) : IsWording s := by
  obtain ⟨hplain, hclear⟩ := Bool.and_eq_true_iff.mp h
  exact ⟨isPlain_of_check hplain, fun _ hrest => lexed_of_isClearFrom hclear nofun fun _ => hrest⟩

theorem isLead_of_check {s : String} (h : isReadable true s = true) : IsLead s := by
  obtain ⟨hplain, hclear⟩ := Bool.and_eq_true_iff.mp h
  exact ⟨isPlain_of_check hplain, fun _ => lexed_of_isClearFrom hclear nofun nofun⟩

/-! ## Putting fragments in a row -/

private theorem startsQuoted_of_isParted {fs : List Fragment}
    (h : isParted (Fragment.render fs) = true) :
    startsQuoted fs = false := by
  cases fs with
  | nil => rfl
  | cons f fs =>
    cases f with
    | name n => cases h
    | literal content => cases h
    | _ => rfl

theorem legible_nil : Legible [] := ⟨trivial, fun rest _ => lexed_nil rest⟩

theorem trails_nil : Trails [] := ⟨legible_nil, rfl⟩

theorem IsLead.before {s : String} {fs : List Fragment} (hs : IsLead s) (h : Legible fs) :
    Legible (.words s :: fs) := by
  refine ⟨⟨hs.plain, nofun, h.orderly⟩, fun rest hrest => ?_⟩
  have hall := (hs.lexed _).append (h.lexed rest hrest)
  rwa [Nat.zero_add] at hall

theorem Trails.after {f : Fragment} {fs : List Fragment} (h : Trails fs) (hsound : Sound f)
    (hf : ∀ rest, isParted rest = true → Lexed f.chars rest ([f].count .mark)) :
    Legible (f :: fs) := by
  refine ⟨⟨hsound, fun _ => startsQuoted_of_isParted h.apart, h.legible.orderly⟩, ?_⟩
  intro rest hrest
  have hall := (hf _ (isParted_append h.apart hrest)).append (h.legible.lexed rest hrest)
  rwa [← List.count_append] at hall

theorem Trails.name {fs : List Fragment} (h : Trails fs) (n : Name) : Legible (.name n :: fs) :=
  h.after trivial fun _ hrest => lexed_name n hrest

theorem Trails.mark {fs : List Fragment} (h : Trails fs) : Legible (.mark :: fs) :=
  h.after trivial fun _ hrest => lexed_mark hrest

theorem Trails.literal {fs : List Fragment} (h : Trails fs) (content : List Char) :
    Legible (.literal content :: fs) :=
  h.after trivial fun _ hrest => lexed_literal content hrest

theorem Trails.words {s : String} {fs : List Fragment} (h : Trails fs) (hs : IsWording s) :
    Legible (.words s :: fs) :=
  h.after hs.plain fun rest hrest => hs.lexed rest hrest

theorem Legible.append {fs gs : List Fragment} (hf : Legible fs) (hg : Trails gs) :
    Legible (fs ++ gs) := by
  refine ⟨orderly_append hf.orderly hg.legible.orderly (startsQuoted_of_isParted hg.apart), ?_⟩
  intro rest hrest
  rw [render_append, List.count_append]
  exact (hf.lexed _ (isParted_append hg.apart hrest)).append (hg.legible.lexed rest hrest)

theorem Trails.append {fs gs : List Fragment} (hf : Trails fs) (hg : Trails gs) :
    Trails (fs ++ gs) := by
  refine ⟨hf.legible.append hg, ?_⟩
  rw [render_append]
  exact isParted_append hf.apart hg.apart

theorem isParted_words {s t : String} (hne : s.toList ≠ []) (hs : isParted s.toList = true) :
    isParted (s ++ t).toList = true := by
  rw [String.toList_append]
  cases hchars : s.toList with
  | nil => exact absurd hchars hne
  | cons c r => rwa [hchars] at hs

theorem IsLead.trails {s : String} {fs : List Fragment} (hs : IsLead s)
    (hstart : isParted s.toList = true) (h : Legible fs) : Trails (.words s :: fs) := by
  refine ⟨hs.before h, ?_⟩
  cases hchars : s.toList with
  | nil => exact absurd hchars hs.plain.nonempty
  | cons c r =>
    rw [hchars] at hstart
    rw [render_cons, Fragment.chars, hchars]
    exact hstart

theorem IsWording.trails {s : String} {fs : List Fragment} (hs : IsWording s)
    (hstart : isParted s.toList = true) (h : Trails fs) : Trails (.words s :: fs) :=
  ⟨h.words hs, by
    rw [render_cons]
    exact isParted_append hstart h.apart⟩

theorem trails_only {s : String} (hs : IsWording s) (hstart : isParted s.toList = true) :
    Trails [.words s] :=
  hs.trails hstart trails_nil

theorem legible_separated {sep : String} (hsep : IsLead sep) (hstart : isParted sep.toList = true)
    {parts : List (List Fragment)} (h : ∀ p ∈ parts, Legible p) :
    Legible (Fragment.separated sep parts) := by
  induction parts with
  | nil => exact legible_nil
  | cons p parts ih =>
    obtain ⟨hp, hparts⟩ := List.forall_mem_cons.mp h
    cases parts with
    | nil => exact hp
    | cons q parts => exact hp.append (hsep.trails hstart (ih hparts))

theorem legible_names (ns : List Name) : Legible (Fragment.names ns) := by
  refine legible_separated (isLead_of_check rfl) rfl fun p hp => ?_
  obtain ⟨n, _, rfl⟩ := List.mem_map.mp hp
  exact trails_nil.name n

theorem legible_marks (count : Nat) : Legible (Fragment.marks count) := by
  have hmarks : Legible (Fragment.separated "," (List.replicate count [.mark])) := by
    refine legible_separated (isLead_of_check rfl) rfl fun p hp => ?_
    rw [List.eq_of_mem_replicate hp]
    exact trails_nil.mark
  have hclose : Trails [.words ")"] := (isLead_of_check rfl).trails rfl legible_nil
  exact ((isLead_of_check (s := "(") rfl).before hmarks).append hclose

/-! ## Counting marks -/

@[simp]
private theorem count_words (s : String) (fs : List Fragment) :
    (.words s :: fs).count Fragment.mark = fs.count .mark := by
  simp

@[simp]
private theorem count_separated (sep : String) (parts : List (List Fragment)) :
    (Fragment.separated sep parts).count .mark = parts.flatten.count .mark := by
  induction parts with
  | nil => rfl
  | cons p parts ih =>
    cases parts with
    | nil => simp [Fragment.separated]
    | cons q parts =>
      rw [Fragment.separated, List.count_append, count_words, ih, ← List.count_append]
      rfl

@[simp]
theorem count_names (ns : List Name) : (Fragment.names ns).count .mark = 0 := by
  simp [Fragment.names, List.count_eq_zero]

@[simp]
private theorem count_marks (count : Nat) : (Fragment.marks count).count .mark = count := by
  simp [Fragment.marks]

end QueryGateway.Proofs.Sql.Sentences
