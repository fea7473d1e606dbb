import QueryGateway.Proofs.Plan.Rows
import QueryGateway.Proofs.Sql.Outside

/-!
Which schema statements of the caller's the gateway lets through. The screening looks for the phrase
of such a statement anywhere in the text, and neither where the server begins to read nor where it
ends; what is let through is a definition where that phrase happens to stand in front.
-/

set_option autoImplicit false
set_option relaxedAutoImplicit false

namespace QueryGateway.Proofs.Plan.Definitions

open QueryGateway.Plan
open QueryGateway.Sql.Screening
open QueryGateway.Text.Runs (kindOf)
open QueryGateway.Proofs.Plan.Rows
open QueryGateway.Proofs.Sql.Outside
open QueryGateway.Proofs.Sql.Patterns
open QueryGateway.Proofs.Text.LetterCase (toNat_lt_of_toLower)

/-! ## Definitions -/

/-- Verbs of statements that define or discard objects of the schema. -/
def definingVerbs : List String := ["create", "alter", "drop", "truncate"]

/-- Whether a text begins with such a verb and, as the next word, a kind of object. -/
def opensDefinition (s : List Char) : Bool :=
  beginsWith isSpacing definingVerbs s &&
    beginsWith isSpacing schemaObjects (behindWord isSpacing s)

/-- A text with nothing in it for the server to carry out: white space and comments. -/
def IsIdle (dashes : List Char → Bool) (s : List Char) : Prop :=
  ∀ t ∈ parts dashes s, t.head?.any isSpacing = true ∨ opensComment dashes t = true

/-- A single statement that begins the way definitions do. -/
structure IsDefinition (dashes : List Char → Bool) (s : List Char) : Prop where
  opens : opensDefinition s = true
  single : ∀ r ∈ behind? dashes s, IsIdle dashes r

/-! ## Phrases in front -/

/-- A text in front of which stands the phrase that the screening looks for, in ASCII letters and
between the white space of the server, and behind it nothing that goes on with a word. -/
def StartsWithPhrase (s : List Char) : Prop :=
  ∃ before verb gap object after, s = before ++ (verb ++ (gap ++ (object ++ after))) ∧
    Phrase before verb gap object after ∧ (∀ c ∈ before ++ gap, isSpacing c = true) ∧
      (∀ c ∈ verb ++ object, c.toNat < 128) ∧ ∀ d ∈ after.head?, isWordPart d = false

private theorem StartsWithPhrase.holdsPhrase {s : List Char} (h : StartsWithPhrase s) :
    HoldsPhrase s := by
  obtain ⟨before, verb, gap, object, after, hs, hphrase, _⟩ := h
  exact ⟨before, verb, gap, object, after, hs, hphrase⟩

private theorem startsWithPhrase_of_opensDefinition {s : List Char} (h : opensDefinition s = true) :
    StartsWithPhrase s := by
  obtain ⟨hverb, hobject⟩ := Bool.and_eq_true_iff.mp h
  obtain ⟨before, verb, rest, rfl, hleads, hspells⟩ :=
    (beginsWith_iff not_isWordPart_of_isSpacing (by decide)).mp hverb
  rw [(hleads.words_eq not_isWordPart_of_isSpacing).2] at hobject
  obtain ⟨gap, object, after, rfl, hleads', hspells'⟩ :=
    (beginsWith_iff not_isWordPart_of_isSpacing (by decide)).mp hobject
  -- the verb ends where a word may end, so the object cannot follow it at once
  have hgapped : gap ≠ [] := by
    rintro rfl
    obtain ⟨c, r, rfl⟩ := List.exists_cons_of_ne_nil hleads'.nonempty
    have hends := hleads.ends c rfl
    rw [isWordPart_of_isLower (hleads'.letters c List.mem_cons_self)] at hends
    cases hends
  have hblank : ∀ c ∈ gap, kindOf c = .blank :=
    fun c hc => kindOf_of_isSpacing (hleads'.passed c hc)
  have hleft : ∀ c ∈ (before ++ verb ++ gap).getLast?, kindOf c ≠ .word := by
    intro c hc
    rw [List.getLast?_append_of_ne_nil _ hgapped] at hc
    exact kindOf_ne_word_of_blank hblank c (List.mem_of_getLast? hc)
  have hascii : ∀ {w : List Char}, (∀ c ∈ w, c.toLower.isLower = true) → ∀ c ∈ w, c.toNat < 128 :=
    fun hw c hc => toNat_lt_of_toLower (toNat_lt_of_isLower (hw c hc))
  refine ⟨before, verb, gap, object, after, rfl, ⟨hgapped, hblank, ?_, ?_,
    isOneOf_of_spells (by decide) hspells, isOneOf_of_spells (by decide) hspells'⟩,
    List.forall_mem_append.mpr ⟨hleads.passed, hleads'.passed⟩,
    List.forall_mem_append.mpr ⟨hascii hleads.letters, hascii hleads'.letters⟩, hleads'.ends⟩
  · exact hleads.stands not_isWordPart_of_isSpacing [] nofun
  · exact { hleads'.stands not_isWordPart_of_isSpacing [] nofun with left := hleft }

private theorem opensDefinition_of_startsWithPhrase {s : List Char} (h : StartsWithPhrase s) :
    opensDefinition s = true := by
  obtain ⟨before, verb, gap, object, after, rfl, hphrase, hspacing, hascii, hends⟩ := h
  obtain ⟨hbefore, hgap⟩ := List.forall_mem_append.mp hspacing
  obtain ⟨hverb, hobject⟩ := List.forall_mem_append.mp hascii
  have hspells : spells definingVerbs verb = true := spells_of_isOneOf hverb hphrase.verb
  have hspells' : spells schemaObjects object = true := spells_of_isOneOf hobject hphrase.object
  obtain ⟨hnonempty, hletters⟩ := letters_of_spells (by decide) hspells
  obtain ⟨hnonempty', hletters'⟩ := letters_of_spells (by decide) hspells'
  have hparted : ∀ d ∈ (gap ++ (object ++ after)).head?, isWordPart d = false := by
    intro d hd
    rw [List.head?_append_of_ne_nil _ hphrase.gapped] at hd
    exact Bool.eq_false_iff.mpr (not_isWordPart_of_isSpacing (hgap d (List.mem_of_head? hd)))
  have hleads : Leads isSpacing before verb (gap ++ (object ++ after)) :=
    ⟨hbefore, hnonempty, hletters, hparted⟩
  have hleads' : Leads isSpacing gap object after := ⟨hgap, hnonempty', hletters', hends⟩
  rw [opensDefinition, Bool.and_eq_true, (hleads.words_eq not_isWordPart_of_isSpacing).2]
  constructor
  · exact (beginsWith_iff not_isWordPart_of_isSpacing (by decide)).mpr
      ⟨before, verb, _, rfl, hleads, hspells⟩
  · exact (beginsWith_iff not_isWordPart_of_isSpacing (by decide)).mpr
      ⟨gap, object, after, rfl, hleads', hspells'⟩

/-! ## What is let through -/

/-- A schema statement that the gateway lets through, by itself or in an operation that has a
plan. -/
inductive Admitted (s : String) : Prop
  | alone : schemaStatement (.text s) = .ok s → Admitted s
  | carried {plan : Plan} : Plan.ofOperation (.ddl s) = .ok plan → Admitted s

private theorem admitted_iff {s : String} : Admitted s ↔ HoldsPhrase s.toList := by
  constructor
  · intro h
    cases h with
    | alone h => exact (schemaStatement_ok_iff.mp h).2
    | carried h =>
      obtain ⟨s', hs', _⟩ := ofDdl_ok_iff.mp h
      exact (schemaStatement_ok_iff.mp hs').2
  · intro h
    exact .alone (schemaStatement_ok_iff.mpr ⟨rfl, h⟩)

/-- What is let through is a definition just if the phrase of one, where there is one at all, stands
in front and nothing to carry out follows the first semicolon. -/
theorem isDefinition_of_admitted_iff (s : String) (dashes : List Char → Bool) :
    (Admitted s → IsDefinition dashes s.toList) ↔
      (HoldsPhrase s.toList → StartsWithPhrase s.toList ∧
        ∀ r ∈ behind? dashes s.toList, IsIdle dashes r) := by
  rw [admitted_iff]
  constructor
  · intro h hphrase
    obtain ⟨hopens, hsingle⟩ := h hphrase
    exact ⟨startsWithPhrase_of_opensDefinition hopens, hsingle⟩
  · intro h hphrase
    obtain ⟨hstarts, hsingle⟩ := h hphrase
    exact ⟨opensDefinition_of_startsWithPhrase hstarts, hsingle⟩

/-- A query is let through that holds the phrase in a quotation. -/
theorem not_isDefinition_quoting :
    schemaStatement (.text "SELECT 'drop table'") = .ok "SELECT 'drop table'" ∧
      ∀ dashes, ¬ IsDefinition dashes "SELECT 'drop table'".toList := by
  have hopens : opensDefinition "SELECT 'drop table'".toList = false := by decide
  exact ⟨by rfl, fun dashes h => Bool.false_ne_true (hopens.symm.trans h.opens)⟩

theorem IsDefinition.admitted {dashes : List Char → Bool} {s : String}
    (h : IsDefinition dashes s.toList) : Admitted s :=
  admitted_iff.mpr (startsWithPhrase_of_opensDefinition h.opens).holdsPhrase

end QueryGateway.Proofs.Plan.Definitions
