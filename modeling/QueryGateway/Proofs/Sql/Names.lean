import QueryGateway.Proofs.Success
import QueryGateway.Proofs.Text.Blank
import QueryGateway.Proofs.Text.LetterCase
import QueryGateway.Proofs.Text.Split
import QueryGateway.Sql.Name

/-!
Names and the texts that they were read from, and the spellings of protected schemas.
-/

set_option autoImplicit false
set_option relaxedAutoImplicit false

namespace QueryGateway.Proofs.Sql.Names

open QueryGateway.Sql
open QueryGateway.Proofs.Success

theorem isNameChar_of_mem {n : Name} {c : Char} (h : c ∈ n.chars) : isNameChar c = true := by
  have hall := n.isName_chars
  rw [isName, Bool.and_eq_true, List.all_eq_true] at hall
  exact hall.2 c h

theorem toList_text (n : Name) : n.text.toList = n.chars := String.toList_ofList

theorem text_injective {m n : Name} (h : m.text = n.text) : m = n := by
  have hc : m.chars = n.chars := by rw [← toList_text, h, toList_text]
  cases m
  cases n
  simp only at hc
  subst hc
  rfl

theorem map_text_injective {ms ns : List Name} (h : ms.map Name.text = ns.map Name.text) :
    ms = ns :=
  List.map_injective_iff.mpr (fun _ _ => text_injective) h

theorem ofText_ok {kind : NameKind} {s : String} {n : Name} :
    Name.ofText kind s = .ok n ↔ n.text = s := by
  simp only [Name.ofText, Name.ofValue, Name.ofChars?]
  constructor
  · intro h
    split at h
    · rename_i m hm
      split at hm
      · cases hm
        cases h
        exact String.ofList_toList
      · cases hm
    · cases h
  · rintro rfl
    have hn : isName n.text.toList = true := by rw [toList_text]; exact n.isName_chars
    rw [dif_pos hn]
    simp only [toList_text]

theorem mapM_ofText_ok {kind : NameKind} {ss : List String} {ns : List Name} :
    ss.mapM (Name.ofText kind) = .ok ns ↔ ns.map Name.text = ss := by
  rw [mapM_ok]
  constructor
  · intro h
    have hm := map_eq_of_forall₂ (f := id) (g := Name.text) h fun s _ n hs => (ofText_ok.mp hs).symm
    rw [← hm, List.map_id]
  · rintro rfl
    induction ns with
    | nil => exact .nil
    | cons n ns ih => exact .cons (ofText_ok.mpr rfl) ih

/-!
## Protected schemas

Spellings of protected schemas: in any letter case, with white space and backticks around them, by
themselves or in front of the name of a table. All of them are recognised.
-/

section ProtectedSchemas

open QueryGateway.Sql
open QueryGateway.Text
open QueryGateway.Proofs.Text.LetterCase
open QueryGateway.Proofs.Text.Blank
open QueryGateway.Proofs.Text.Split (cutFirst?_append cutFirst?_eq_none_iff)

/-- The name of a protected schema in some letter case. -/
def IsProtected (s : List Char) : Prop :=
  ∃ p ∈ ["mysql", "information_schema", "performance_schema", "sys"],
    s.map Char.toLower = p.toList

/-- A protected schema as it may be written: in backticks, with white space around those. -/
def IsWritten (s : List Char) : Prop :=
  ∃ blanks ticks schema ticks' blanks', s = blanks ++ (ticks ++ schema ++ ticks') ++ blanks' ∧
    IsProtected schema ∧ (∀ c ∈ blanks ++ blanks', Blank.isBlank c = true) ∧
    ∀ c ∈ ticks ++ ticks', (c == '`') = true

/-- A name inside a protected schema, or of the schema itself: behind the schema stands nothing but
a point and whatever follows that. -/
def IsInside (s : List Char) : Prop :=
  ∃ front rest, s = front ++ rest ∧ IsWritten front ∧ (rest = [] ∨ ∃ table, rest = '.' :: table)

variable {s : List Char}

theorem IsProtected.isInside (h : IsProtected s) : IsInside s :=
  ⟨s, [], by simp, ⟨[], [], s, [], [], by simp, h, nofun, nofun⟩, .inl rfl⟩

/-- A letter of a protected schema is neither white space nor a backtick nor a point. -/
structure IsPlain (c : Char) : Prop where
  ascii : c.toNat < 128
  blank : Blank.isBlank c = false
  tick : (c == '`') = false
  point : c ≠ '.'

theorem IsProtected.plain (h : IsProtected s) : ∀ c ∈ s, IsPlain c := by
  have hletters : ∀ p ∈ ["mysql", "information_schema", "performance_schema", "sys"],
      p.toList.all (fun c => (c.isLower || c == '_') && decide (c.toNat < 128)) = true := by decide
  obtain ⟨p, hp, hlower⟩ := h
  intro c hc
  have hmem : c.toLower ∈ p.toList := by
    rw [← hlower]
    exact List.mem_map_of_mem hc
  obtain ⟨hletter, hascii⟩ := Bool.and_eq_true_iff.mp (List.all_eq_true.mp (hletters p hp) _ hmem)
  rw [decide_eq_true_iff] at hascii
  refine ⟨toNat_lt_of_toLower hascii, ?_, ?_, ?_⟩
  · exact isBlank_of_class (p := fun c => c.toLower.isLower || c.toLower == '_') (by decide) hletter
  · refine beq_eq_false_iff_ne.mpr ?_
    rintro rfl
    exact absurd hletter (by decide)
  · rintro rfl
    exact absurd hletter (by decide)

private theorem isSchema_of_isProtected (h : IsProtected s) : Protected.isSchema s = true := by
  have hascii : ∀ c ∈ s, c.toNat < 128 := fun c hc => (h.plain c hc).ascii
  obtain ⟨p, hp, hlower⟩ := h
  rw [Protected.isSchema, lower_of_ascii hascii, hlower]
  exact List.any_eq_true.mpr ⟨p, hp, beq_self_eq_true _⟩

/-! ## Recognition -/

private theorem strip_trim_of_isWritten (h : IsWritten s) :
    IsProtected (Blank.strip (· == '`') (Blank.trim s)) ∧ '.' ∉ s := by
  obtain ⟨blanks, ticks, schema, ticks', blanks', rfl, hschema, hblanks, hticks⟩ := h
  obtain ⟨hbefore, hbehind⟩ := List.forall_mem_append.mp hblanks
  obtain ⟨hopening, hclosing⟩ := List.forall_mem_append.mp hticks
  have hplain := hschema.plain
  have hsolid : ∀ c ∈ ticks ++ schema ++ ticks', Blank.isBlank c = false := by
    intro c hc
    rcases List.mem_append.mp hc with hc | hc
    · rcases List.mem_append.mp hc with hc | hc
      · rw [beq_iff_eq.mp (hopening c hc)]
        rfl
      · exact (hplain c hc).blank
    · rw [beq_iff_eq.mp (hclosing c hc)]
      rfl
  constructor
  · rw [trim_eq hbefore hbehind (fun c hc => hsolid c (List.mem_of_head? hc))
      fun c hc => hsolid c (List.mem_of_getLast? hc),
      strip_eq hopening hclosing (fun c hc => (hplain c (List.mem_of_head? hc)).tick)
      fun c hc => (hplain c (List.mem_of_getLast? hc)).tick]
    exact hschema
  · simp only [List.mem_append, not_or]
    have hpoint : ∀ {p : Char → Bool} {t : List Char}, p '.' = false → (∀ c ∈ t, p c = true) →
        '.' ∉ t := by
      intro p t hp ht hmem
      rw [ht _ hmem] at hp
      cases hp
    exact ⟨⟨hpoint rfl hbefore, ⟨hpoint rfl hopening, fun hc => (hplain _ hc).point rfl⟩,
      hpoint rfl hclosing⟩, hpoint rfl hbehind⟩

theorem targets_of_isInside (h : IsInside s) : Protected.targets s = true := by
  obtain ⟨front, rest, rfl, hfront, hrest⟩ := h
  obtain ⟨hschema, hpoint⟩ := strip_trim_of_isWritten hfront
  have hpart : Protected.schemaPart (front ++ rest) =
      Blank.strip (· == '`') (Blank.trim front) := by
    rcases hrest with rfl | ⟨table, rfl⟩
    · rw [List.append_nil, Protected.schemaPart, cutFirst?_eq_none_iff.mpr hpoint]
    · rw [Protected.schemaPart, cutFirst?_append hpoint]
  rw [Protected.targets, hpart, isSchema_of_isProtected hschema, Bool.or_true]

end ProtectedSchemas

end QueryGateway.Proofs.Sql.Names
