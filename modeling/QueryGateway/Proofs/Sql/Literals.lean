import QueryGateway.Proofs.Sql.Lexical

/-!
Literals that the gateway writes, read back by the rules of the server. A reader stops at the
closing quote and nowhere before, whether or not it takes a backslash for the start of an escape.
-/

set_option autoImplicit false
set_option relaxedAutoImplicit false

namespace QueryGateway.Proofs.Sql.Literals

open QueryGateway.Sql
open QueryGateway.Proofs.Sql.Lexical (escape)

/-! ## Reading -/

/-- What a literal stands for from behind its opening quote, and what follows its closing quote. Two
quotes stand for one, and where there are escapes a backslash and a character for what they
spell. -/
def readBehind? (escapes : Bool) : List Char → Option (List Char × List Char)
  | [] => none
  | c :: r =>
    if c = '\'' then
      match r with
      | '\'' :: r => (readBehind? escapes r).map fun p => ('\'' :: p.1, p.2)
      | r => some ([], r)
    else if escapes && c = '\\' then
      match r with
      | [] => none
      | d :: r => (readBehind? escapes r).map fun p => (escape d ++ p.1, p.2)
    else (readBehind? escapes r).map fun p => (c :: p.1, p.2)

/-- What the literal at the start of a text stands for, and what follows it. -/
def read? (escapes : Bool) : List Char → Option (List Char × List Char)
  | '\'' :: r => readBehind? escapes r
  | _ => none

/-- What the backslashes of a text become: a reader without escapes sees each of them twice. -/
def seen (escapes : Bool) (content : List Char) : List Char :=
  content.flatMap fun c => if c = '\\' && !escapes then [c, c] else [c]

variable {escapes : Bool} {r rest : List Char}

private theorem readBehind?_end (hrest : rest.head? ≠ some '\'') :
    readBehind? escapes ('\'' :: rest) = some ([], rest) := by
  cases rest with
  | nil => rfl
  | cons d rest =>
    have hne : d ≠ '\'' := by simpa using hrest
    simp [readBehind?, hne]

private theorem readBehind?_quotes :
    readBehind? escapes ('\'' :: '\'' :: r) =
      (readBehind? escapes r).map fun p => ('\'' :: p.1, p.2) := by
  simp [readBehind?]

private theorem readBehind?_slash :
    readBehind? false ('\\' :: r) = (readBehind? false r).map fun p => ('\\' :: p.1, p.2) := by
  rw [readBehind?.eq_def]
  rfl

private theorem readBehind?_backslashes :
    readBehind? escapes ('\\' :: '\\' :: r) =
      (readBehind? escapes r).map fun p => (seen escapes ['\\'] ++ p.1, p.2) := by
  cases escapes with
  | true => simp [readBehind?, seen, escape]
  | false => simp [readBehind?_slash, seen, Function.comp_def]

private theorem readBehind?_other {c : Char} (hquote : c ≠ '\'') (hslash : c ≠ '\\') :
    readBehind? escapes (c :: r) = (readBehind? escapes r).map fun p => (c :: p.1, p.2) := by
  have hescape : ¬ (escapes && decide (c = '\\')) = true := by simp [hslash]
  rw [readBehind?.eq_def]
  exact (if_neg hquote).trans (if_neg hescape)

/-! ## Literals -/

theorem seen_true (content : List Char) : seen true content = content := by
  simp [seen]

private theorem seen_cons (c : Char) (content : List Char) :
    seen escapes (c :: content) = seen escapes [c] ++ seen escapes content := by
  simp [seen]

private theorem readBehind?_escaped (content : List Char) (hrest : rest.head? ≠ some '\'') :
    readBehind? escapes (content.flatMap Fragment.escapeChar ++ '\'' :: rest) =
      some (seen escapes content, rest) := by
  -- Every character is written as a unit that the reader takes whole, so it never meets half of one.
  induction content with
  | nil => exact readBehind?_end hrest
  | cons c content ih =>
    rw [List.flatMap_cons, List.append_assoc, seen_cons]
    by_cases hquote : c = '\''
    · subst hquote
      have hunit : Fragment.escapeChar '\'' = ['\'', '\''] := rfl
      rw [hunit, List.cons_append, List.singleton_append, readBehind?_quotes, ih]
      simp [seen]
    · by_cases hslash : c = '\\'
      · subst hslash
        have hunit : Fragment.escapeChar '\\' = ['\\', '\\'] := rfl
        rw [hunit, List.cons_append, List.singleton_append, readBehind?_backslashes, ih]
        rfl
      · have hunit : Fragment.escapeChar c = [c] := by simp [Fragment.escapeChar, hquote, hslash]
        rw [hunit, List.singleton_append, readBehind?_other hquote hslash, ih]
        simp [seen, hslash]

theorem read?_quoteLiteral (escapes : Bool) (content : List Char)
    (hrest : rest.head? ≠ some '\'') :
    read? escapes (Fragment.quoteLiteral content ++ rest) = some (seen escapes content, rest) := by
  simpa [Fragment.quoteLiteral, read?] using readBehind?_escaped content hrest

private theorem quoteLiteral_injective {content content' : List Char}
    (h : Fragment.quoteLiteral content = Fragment.quoteLiteral content') : content = content' := by
  have hend : ([] : List Char).head? ≠ some '\'' := by decide
  have hread := read?_quoteLiteral true content hend
  rw [h, read?_quoteLiteral true content' hend, seen_true, seen_true] at hread
  exact (Prod.mk.inj (Option.some.inj hread)).1.symm

/-! ## Texts as literals -/

private theorem ofText_of_nul {s : String} (h : Char.ofNat 0 ∈ s.toList) :
    Fragment.ofText s =
      .error (.ofFault (.invalid "String literal contains a NUL character")) := by
  rw [Fragment.ofText, if_pos (List.contains_iff_mem.mpr h)]
  rfl

theorem ofText_ok_iff {s : String} {f : Fragment} :
    Fragment.ofText s = .ok f ↔ Char.ofNat 0 ∉ s.toList ∧ f = .literal s.toList := by
  rw [Fragment.ofText, ← List.contains_iff_mem]
  split <;> simp_all [eq_comm]

/-- A text is refused just if it has a NUL character. Else it is written as a literal that is read
back as the text up to its last character and no further, by readers with and without escapes, and
no other text is written as that literal. -/
theorem ofText_reads_back (s : String) :
    (Char.ofNat 0 ∈ s.toList →
        ∃ g, Fragment.ofText s = .error (.ofFault g) ∧ g.category = .validation) ∧
      (Char.ofNat 0 ∉ s.toList → ∃ f, Fragment.ofText s = .ok f ∧
        (∀ rest : List Char, rest.head? ≠ some '\'' →
          read? true (f.chars ++ rest) = some (s.toList, rest) ∧
            read? false (f.chars ++ rest) = some (seen false s.toList, rest)) ∧
        ∀ s' f', Fragment.ofText s' = .ok f' → f'.chars = f.chars → s' = s) := by
  refine ⟨fun hnul => ⟨_, ofText_of_nul hnul, rfl⟩, fun hnul => ?_⟩
  refine ⟨.literal s.toList, ofText_ok_iff.mpr ⟨hnul, rfl⟩, fun rest hrest => ⟨?_, ?_⟩, ?_⟩
  · have hread := read?_quoteLiteral true s.toList hrest
    rwa [seen_true] at hread
  · exact read?_quoteLiteral false s.toList hrest
  · intro s' f' hs' hchars
    obtain ⟨_, rfl⟩ := ofText_ok_iff.mp hs'
    exact String.toList_inj.mp (quoteLiteral_injective hchars)

/-- A text that ends in a backslash does not take the closing quote with it. -/
theorem ofText_reads_back_backslash :
    ∃ f, Fragment.ofText "it's \\" = .ok f ∧ f.chars = "'it''s \\\\'".toList ∧
      read? true (f.chars ++ ", 1".toList) = some ("it's \\".toList, ", 1".toList) ∧
        read? false (f.chars ++ ", 1".toList) = some ("it's \\\\".toList, ", 1".toList) := by
  obtain ⟨f, hf, hreads, _⟩ := (ofText_reads_back "it's \\").2 (by decide)
  have hchars : f.chars = "'it''s \\\\'".toList := by
    obtain ⟨_, rfl⟩ := ofText_ok_iff.mp hf
    rfl
  exact ⟨f, hf, hchars, (hreads _ (by decide)).1, (hreads _ (by decide)).2⟩

end QueryGateway.Proofs.Sql.Literals
