import QueryGateway.Proofs.Text.Runs
import QueryGateway.Sql.Screening

/-!
What the patterns of the screening find in a text. A word is found wherever it stands by itself, a
stacked verb behind any semicolon, and the phrase of a schema statement anywhere at all; the
patterns see no quotations.
-/

set_option autoImplicit false
set_option relaxedAutoImplicit false

namespace QueryGateway.Proofs.Sql.Patterns

open QueryGateway.Sql.Screening
open QueryGateway.Text
open QueryGateway.Text.Runs
open QueryGateway.Proofs.Text.Runs

/-! ## Words -/

private theorem isOneOf_iff {words : List String} {r : Run} :
    isOneOf words r = true ↔ r.kind = .word ∧ isOneOf words ⟨.word, r.text⟩ = true := by
  simp [isOneOf]

theorem hasWord_iff {words : List String} {s : List Char} :
    hasWord words s = true ↔ ∃ before w after, s = before ++ (w ++ after) ∧
      Stands before w after ∧ isOneOf words ⟨.word, w⟩ = true := by
  rw [hasWord, List.any_eq_true]
  constructor
  · rintro ⟨⟨kind, w⟩, hmem, hone⟩
    obtain ⟨rfl, _⟩ := isOneOf_iff.mp hone
    obtain ⟨before, after, hs, hstands⟩ := word_mem_ofText_iff.mp hmem
    exact ⟨before, w, after, hs, hstands, hone⟩
  · rintro ⟨before, w, after, hs, hstands, hone⟩
    exact ⟨_, word_mem_ofText_iff.mpr ⟨before, after, hs, hstands⟩, hone⟩

/-! ## Marks -/

private theorem occursIn_iff {needle s : List Char} :
    Split.occursIn needle s = true ↔ needle <:+: s := by
  induction s with
  | nil => rw [Split.occursIn, List.isEmpty_iff, List.infix_nil]
  | cons c s ih =>
    rw [Split.occursIn, Bool.or_eq_true, List.isPrefixOf_iff_prefix, ih, List.infix_cons_iff]

theorem hasMark_iff {marks : List String} {s : List Char} :
    hasMark marks s = true ↔ ∃ m ∈ marks, m.toList <:+: s := by
  rw [hasMark, List.any_eq_true]
  simp only [occursIn_iff]

/-! ## Stacked verbs -/

def stackedVerbs : List String := ["drop", "delete", "update", "insert"]

private theorem getLast?_semicolon (before : List Char) :
    ∀ c ∈ (before ++ [';']).getLast?, kindOf c = .other := by
  intro c hc
  rw [List.getLast?_concat, Option.mem_some] at hc
  rw [← hc]
  decide

theorem ends_semicolon (before : List Char) :
    ∀ c ∈ (before ++ [';']).getLast?, kindOf c ≠ .word := by
  intro c hc
  rw [getLast?_semicolon before c hc]
  nofun

/-- Whether such a verb comes first, or next after white space. -/
def startsVerb : List Run → Bool
  | [] => false
  | q :: qs =>
    if q.kind == .blank then qs.head?.any (isOneOf stackedVerbs) else isOneOf stackedVerbs q

private theorem hasStackedWrite_cons (r : Run) (rs : List Run) :
    hasStackedWrite (r :: rs) = (endsStatement r && startsVerb rs || hasStackedWrite rs) := by
  cases rs <;> rfl

private theorem hasStackedWrite_iff_runs {rs : List Run} :
    hasStackedWrite rs = true ↔
      ∃ front r back, rs = front ++ r :: back ∧ endsStatement r = true ∧
        startsVerb back = true := by
  induction rs with
  | nil => simp [hasStackedWrite]
  | cons q rs ih =>
    rw [hasStackedWrite_cons, Bool.or_eq_true, Bool.and_eq_true, ih]
    constructor
    · rintro (⟨hends, hverb⟩ | ⟨front, r, back, rfl, hfound⟩)
      · exact ⟨[], q, rs, rfl, hends, hverb⟩
      · exact ⟨q :: front, r, back, rfl, hfound⟩
    · rintro ⟨front, r, back, hrs, hfound⟩
      cases front with
      | nil =>
        obtain ⟨rfl, rfl⟩ := List.cons.inj hrs
        exact .inl hfound
      | cons q' front =>
        obtain ⟨rfl, rfl⟩ := List.cons.inj hrs
        exact .inr ⟨front, r, back, rfl, hfound⟩

theorem kindOf_ne_word_of_blank {gap : List Char} (h : ∀ c ∈ gap, kindOf c = .blank) :
    ∀ c ∈ gap, kindOf c ≠ .word := by
  intro c hc
  rw [h c hc]
  nofun

private theorem startsVerb_ofText_iff {before s : List Char}
    (hbefore : ∀ c ∈ before.getLast?, kindOf c ≠ .word) :
    startsVerb (ofText s) = true ↔ ∃ gap w after, s = gap ++ (w ++ after) ∧
      (∀ c ∈ gap, kindOf c = .blank) ∧ Stands (before ++ gap) w after ∧
        isOneOf stackedVerbs ⟨.word, w⟩ = true := by
  constructor
  · intro h
    cases hruns : ofText s with
    | nil => simp [hruns, startsVerb] at h
    | cons q qs =>
      rw [hruns, startsVerb] at h
      split at h
      · rename_i hblank
        obtain ⟨t, rfl, ht, _, hkind, _⟩ := exists_of_ofText_eq_cons hruns
        rw [beq_iff_eq.mp hblank] at hkind
        cases qs with
        | nil => cases h
        | cons w back =>
          obtain ⟨hword, hone⟩ := isOneOf_iff.mp h
          obtain ⟨after, rfl, hstands, _⟩ := Stands.of_starts hword
            (ends_append hbefore (kindOf_ne_word_of_blank hkind)) ht
          exact ⟨q.text, w.text, after, rfl, hkind, hstands, hone⟩
      · obtain ⟨hword, hone⟩ := isOneOf_iff.mp h
        obtain ⟨after, rfl, hstands, _⟩ := Stands.of_starts hword hbefore hruns
        exact ⟨[], q.text, after, rfl, nofun, by rwa [List.append_nil], hone⟩
  · rintro ⟨gap, w, after, rfl, hgap, hstands, hone⟩
    have hgapped : Stands gap w after :=
      { hstands with left := fun c hc => kindOf_ne_word_of_blank hgap c (List.mem_of_getLast? hc) }
    rw [hgapped.ofText_eq]
    cases gap with
    | nil => exact hone
    | cons c gap =>
      rw [ofText_uniform (List.cons_ne_nil c gap) hgap]
      exact hone

theorem hasStackedWrite_iff {s : List Char} :
    hasStackedWrite (ofText s) = true ↔ ∃ before gap w after,
      s = before ++ ';' :: (gap ++ (w ++ after)) ∧ (∀ c ∈ gap, kindOf c = .blank) ∧
        Stands (before ++ [';'] ++ gap) w after ∧ isOneOf stackedVerbs ⟨.word, w⟩ = true := by
  rw [hasStackedWrite_iff_runs]
  constructor
  · rintro ⟨front, r, back, hruns, hend, hverb⟩
    obtain ⟨t, u, rfl, _, hu, _⟩ := exists_of_ofText_eq_append hruns
    obtain ⟨v, rfl, rfl, _⟩ := exists_of_ofText_eq_cons hu
    obtain ⟨x, hx⟩ := List.getLast?_eq_some_iff.mp (beq_iff_eq.mp hend)
    obtain ⟨gap, w, after, rfl, hfound⟩ :=
      (startsVerb_ofText_iff (ends_semicolon (t ++ x))).mp hverb
    exact ⟨t ++ x, gap, w, after, by simp [hx], hfound⟩
  · rintro ⟨before, gap, w, after, rfl, hgap, hstands, hone⟩
    obtain ⟨front, r, hruns, hlast⟩ := exists_last_run before ';'
    have hparted : Parted (before ++ [';']) (gap ++ (w ++ after)) := by
      refine parted_of_ends (getLast?_semicolon before) fun d hd => ?_
      cases gap with
      | nil =>
        rw [List.nil_append, List.head?_append_of_ne_nil _ hstands.nonempty] at hd
        rw [hstands.word d (List.mem_of_head? hd)]
        nofun
      | cons b gap =>
        rw [hgap d (List.mem_of_head? hd)]
        nofun
    refine ⟨front, r, ofText (gap ++ (w ++ after)), ?_, beq_iff_eq.mpr hlast,
      (startsVerb_ofText_iff (ends_semicolon before)).mpr ⟨gap, w, after, rfl, hgap, hstands, hone⟩⟩
    have hsplit : before ++ ';' :: (gap ++ (w ++ after)) =
        before ++ [';'] ++ (gap ++ (w ++ after)) := by simp
    rw [hsplit, ofText_append hparted, hruns, List.append_assoc]
    rfl

/-! ## Phrases -/

/-- Two words that stand in a text with white space between them, the verb of a schema statement and
a kind of object. -/
structure Phrase (before verb gap object after : List Char) : Prop where
  gapped : gap ≠ []
  blank : ∀ c ∈ gap, kindOf c = .blank
  stands : Stands before verb (gap ++ (object ++ after))
  stands_object : Stands (before ++ verb ++ gap) object after
  verb : isOneOf schemaVerbs ⟨.word, verb⟩ = true
  object : isOneOf schemaObjects ⟨.word, object⟩ = true

/-- A text with such a phrase anywhere in it. -/
def HoldsPhrase (s : List Char) : Prop :=
  ∃ before verb gap object after, s = before ++ (verb ++ (gap ++ (object ++ after))) ∧
    Phrase before verb gap object after

private theorem hasSchemaPhrase_cons {r : Run} {rs : List Run} (h : hasSchemaPhrase rs = true) :
    hasSchemaPhrase (r :: rs) = true := by
  match rs with
  | [] => cases h
  | [_] => cases h
  | b :: o :: rs => rw [hasSchemaPhrase, h, Bool.or_true]

private theorem hasSchemaPhrase_iff_runs {rs : List Run} :
    hasSchemaPhrase rs = true ↔ ∃ front v b o back, rs = front ++ v :: b :: o :: back ∧
      isOneOf schemaVerbs v = true ∧ b.kind = .blank ∧ isOneOf schemaObjects o = true := by
  constructor
  · intro h
    fun_induction hasSchemaPhrase rs with
    | case1 v b o rs ih =>
      rw [Bool.or_eq_true, Bool.and_eq_true, Bool.and_eq_true, beq_iff_eq, and_assoc] at h
      rcases h with hhere | hlater
      · exact ⟨[], v, b, o, rs, rfl, hhere⟩
      · obtain ⟨front, v', b', o', back, hrs, hfound⟩ := ih hlater
        exact ⟨v :: front, v', b', o', back, congrArg (v :: ·) hrs, hfound⟩
    | case2 => cases h
  · rintro ⟨front, v, b, o, back, rfl, hverb, hblank, hobject⟩
    induction front with
    | nil => simp [hasSchemaPhrase, hverb, hblank, hobject]
    | cons q front ih => exact hasSchemaPhrase_cons ih

private theorem hasSchemaPhrase_iff {s : List Char} :
    hasSchemaPhrase (ofText s) = true ↔ HoldsPhrase s := by
  rw [hasSchemaPhrase_iff_runs]
  constructor
  · rintro ⟨front, v, b, o, back, hruns, hverb, hblank, hobject⟩
    obtain ⟨hv, hverb⟩ := isOneOf_iff.mp hverb
    obtain ⟨ho, hobject⟩ := isOneOf_iff.mp hobject
    obtain ⟨before, t, rfl, hstands, ht⟩ := Stands.of_ofText hv hruns
    obtain ⟨u, rfl, hu, hgapped, hkind, _⟩ := exists_of_ofText_eq_cons ht
    rw [hblank] at hkind
    have hbefore : ∀ c ∈ (before ++ v.text ++ b.text).getLast?, kindOf c ≠ .word := by
      intro c hc
      rw [List.getLast?_append_of_ne_nil _ hgapped] at hc
      exact kindOf_ne_word_of_blank hkind c (List.mem_of_getLast? hc)
    obtain ⟨after, rfl, hstands_object, _⟩ := Stands.of_starts ho hbefore hu
    exact ⟨before, v.text, b.text, o.text, after, rfl, hgapped, hkind, hstands, hstands_object,
      hverb, hobject⟩
  · rintro ⟨before, verb, gap, object, after, rfl, h⟩
    have hobject : Stands gap object after :=
      { h.stands_object with
        left := fun c hc => kindOf_ne_word_of_blank h.blank c (List.mem_of_getLast? hc) }
    refine ⟨ofText before, ⟨.word, verb⟩, ⟨.blank, gap⟩, ⟨.word, object⟩, ofText after, ?_,
      h.verb, rfl, h.object⟩
    rw [h.stands.ofText_eq, hobject.ofText_eq, ofText_uniform h.gapped h.blank]
    rfl

/-! ## What is let through -/

/-- A query that the screening lets through: there is something in it, no word that writes unless it
may write, and nothing dangerous. -/
structure Screened (allowWrite : Bool) (s : List Char) : Prop where
  written : s.all Blank.isBlank = false
  reading : allowWrite = false → hasWord writeWords s = false
  harmless : isDangerous s = false

theorem query_ok_iff {allowWrite : Bool} {q q' : String} :
    query allowWrite (.text q) = .ok q' ↔ q' = q ∧ Screened allowWrite q.toList := by
  simp only [query]
  split_ifs with hblank hwrite hdanger
  · refine iff_of_false nofun fun h => ?_
    rw [h.2.written] at hblank
    cases hblank
  · refine iff_of_false nofun fun h => ?_
    obtain ⟨hallow, hword⟩ := Bool.and_eq_true_iff.mp hwrite
    rw [h.2.reading (by simpa using hallow)] at hword
    cases hword
  · refine iff_of_false nofun fun h => ?_
    rw [h.2.harmless] at hdanger
    cases hdanger
  · constructor
    · intro h
      cases h
      refine ⟨rfl, by simpa using hblank, ?_, by simpa using hdanger⟩
      rintro rfl
      simpa using hwrite
    · rintro ⟨rfl, _⟩
      rfl

theorem schemaStatement_ok_iff {s s' : String} :
    schemaStatement (.text s) = .ok s' ↔ s' = s ∧ HoldsPhrase s.toList := by
  rw [← hasSchemaPhrase_iff]
  simp only [schemaStatement]
  split_ifs with hphrase
  · simp [hphrase, eq_comm]
  · simp [hphrase]

end QueryGateway.Proofs.Sql.Patterns
