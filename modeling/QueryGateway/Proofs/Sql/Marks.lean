import QueryGateway.Sql.Token

/-!
Parameter marks stand where the text has a question mark, so writing them the way a driver wants
changes nothing but question marks and percent signs.
-/

set_option autoImplicit false
set_option relaxedAutoImplicit false

namespace QueryGateway.Proofs.Sql.Marks

open QueryGateway.Sql
open QueryGateway.Sql.Token (Kind Lexeme lexeme? lexemesFrom? visibleAfter)

/-! ## Lexemes -/

/-- What is not a parameter mark, be it a lexeme or none. -/
def Markless (l : Option (Kind × Nat)) : Prop := ∀ n, l ≠ some (.mark, n)

private theorem markless_some {kind : Kind} (hkind : kind ≠ .mark) (n : Nat) :
    Markless (some (kind, n)) := by
  rintro m ⟨⟩
  exact hkind rfl

private theorem markless_map {kind : Kind} (hkind : kind ≠ .mark) (length? : Option Nat)
    (f : Nat → Nat) :
    Markless (length?.map fun n => (kind, f n)) := by
  cases length? with
  | none => nofun
  | some n => exact markless_some hkind _

theorem Markless.longer {l : Option (Kind × Nat)} (h : Markless l) : Markless (Token.longer l) := by
  intro n hn
  obtain ⟨⟨kind, m⟩, hl, heq⟩ := Option.map_eq_some_iff.mp hn
  cases heq
  exact h m hl

private theorem markless_string (quote : Char) (r : List Char) :
    Markless (Token.stringLexeme? quote r) :=
  markless_map (by decide) _ id

private theorem markless_numeral (base : Nat) (letter : Char) (r : List Char) :
    Markless (Token.numeralLexeme? base letter r) := by
  intro n hn
  obtain ⟨m, _, hm⟩ := Option.bind_eq_some_iff.mp hn
  split at hm
  · cases hm
  · cases hm

private theorem markless_word (word rest : List Char) : (Token.wordLexeme word rest).1 ≠ .mark := by
  simp only [Token.wordLexeme, Token.wordKind]
  repeat' split
  all_goals nofun

/-- Nothing but a question mark begins a parameter mark. -/
private theorem markless_of_ne {c : Char} (hc : c ≠ '?') (afterVariable : Bool) (r : List Char) :
    Markless (lexeme? afterVariable c r) := by
  unfold lexeme?
  split
  · exact markless_some (by decide) _
  split
  · exact markless_some (by decide) _
  split
  · exact markless_some (by decide) _
  -- What is left is decided by the first characters.
  split
  all_goals first
    | exact absurd rfl hc
    | exact markless_some (by decide) _
    | exact markless_string _ _
    | exact (markless_string _ _).longer
    | exact (markless_numeral _ _ _).longer
    | skip
  · exact markless_map (by decide) _ id
  · exact markless_map (by decide) _ (· + 1)
  · exact markless_map (by decide) _ (· + 1)
  · split <;> exact markless_some (by decide) _
  · split
    · exact markless_some (markless_word _ _) _
    · exact markless_some (by decide) _

private theorem mark_of_lexemesFrom? {start : Nat} {afterVariable : Bool} {s : List Char}
    {ls : List Lexeme} (h : lexemesFrom? start afterVariable s = some ls) :
    ∀ l ∈ ls, l.kind = .mark → ∃ i, l.start = start + i ∧ s[i]? = some '?' := by
  fun_induction lexemesFrom? start afterVariable s generalizing ls with
  | case1 start afterVariable =>
    cases h
    simp
  | case2 start afterVariable c r hnone => cases h
  | case3 start afterVariable c r kind more hfirst ih =>
    obtain ⟨rest, hrest, rfl⟩ := Option.map_eq_some_iff.mp h
    refine List.forall_mem_cons.mpr ⟨?_, ?_⟩
    · rintro rfl
      have hc : c = '?' := Decidable.byContradiction fun hne =>
        markless_of_ne hne afterVariable r more hfirst
      exact ⟨0, rfl, congrArg some hc⟩
    · intro l hl hmark
      obtain ⟨i, hstart, hi⟩ := ih hrest l hl hmark
      rw [List.getElem?_drop] at hi
      exact ⟨more + i + 1, by omega, hi⟩

private theorem mark_of_visibleAfter (previous : Option Kind) (within : Bool) (ls : List Lexeme) :
    ∀ l ∈ visibleAfter previous within ls, l.kind = .mark →
      ∃ k ∈ ls, k.kind = .mark ∧ k.start = l.start := by
  induction ls generalizing previous within with
  | nil => simp [visibleAfter]
  | cons first ls ih =>
    have hrest : ∀ previous within, ∀ l ∈ visibleAfter previous within ls, l.kind = .mark →
        ∃ k ∈ first :: ls, k.kind = .mark ∧ k.start = l.start := by
      intro previous within l hl hmark
      obtain ⟨k, hk, hkind⟩ := ih previous within l hl hmark
      exact ⟨k, List.mem_cons_of_mem _ hk, hkind⟩
    simp only [visibleAfter]
    generalize hkind : (if (previous == some Kind.variable &&
      (first.kind == .command || first.kind == .opening)) = true then Kind.other else first.kind) =
        kind
    split
    · exact hrest _ _
    · refine List.forall_mem_cons.mpr ⟨?_, hrest _ _⟩
      rintro rfl
      refine ⟨first, List.mem_cons_self, ?_, rfl⟩
      split at hkind
      · cases hkind
      · exact hkind

theorem mark_of_positions {s : List Char} {places : List Nat}
    (h : Placeholder.positions s = .ok places) : ∀ n ∈ places, s[n]? = some '?' := by
  unfold Placeholder.positions at h
  split at h
  · rename_i ls hvisible
    cases h
    obtain ⟨tokens, htokens, rfl⟩ := Option.map_eq_some_iff.mp hvisible
    obtain ⟨all, hall, rfl⟩ := Option.map_eq_some_iff.mp htokens
    intro n hn
    obtain ⟨l, hl, rfl⟩ := List.mem_map.mp hn
    obtain ⟨hl, hkind⟩ := List.mem_filter.mp hl
    obtain ⟨k, hk, hmark, hstart⟩ := mark_of_visibleAfter _ _ _ l hl (by simpa using hkind)
    obtain ⟨i, hi, hc⟩ := mark_of_lexemesFrom? hall k (List.mem_filter.mp hk).1 hmark
    have hplace : l.start = i := by omega
    rw [hplace]
    exact hc
  · cases h

/-! ## Order -/

private theorem pairwise_of_lexemesFrom? {start : Nat} {afterVariable : Bool} {s : List Char}
    {ls : List Lexeme} (h : lexemesFrom? start afterVariable s = some ls) :
    (∀ n ∈ ls.map (·.start), start ≤ n) ∧ (ls.map (·.start)).Pairwise (· < ·) := by
  fun_induction lexemesFrom? start afterVariable s generalizing ls with
  | case1 start afterVariable =>
    cases h
    simp
  | case2 start afterVariable c r hnone => cases h
  | case3 start afterVariable c r kind more hfirst ih =>
    obtain ⟨rest, hrest, rfl⟩ := Option.map_eq_some_iff.mp h
    obtain ⟨hlow, hsorted⟩ := ih hrest
    refine ⟨List.forall_mem_cons.mpr ⟨Nat.le_refl _, fun n hn => ?_⟩,
      List.pairwise_cons.mpr ⟨?_, hsorted⟩⟩
    · have hn := hlow n hn
      omega
    · intro n hn
      have hn := hlow n hn
      change start < n
      omega

private theorem visibleAfter_sublist (previous : Option Kind) (within : Bool) (ls : List Lexeme) :
    ((visibleAfter previous within ls).map (·.start)).Sublist (ls.map (·.start)) := by
  induction ls generalizing previous within with
  | nil => exact List.Sublist.slnil
  | cons l ls ih =>
    simp only [visibleAfter]
    generalize (if (previous == some Kind.variable &&
      (l.kind == .command || l.kind == .opening)) = true then Kind.other else l.kind) = kind
    split
    · exact (ih _ _).cons _
    · exact (ih _ _).cons_cons _

theorem sorted_positions {s : List Char} {places : List Nat}
    (h : Placeholder.positions s = .ok places) : places.Pairwise (· < ·) := by
  unfold Placeholder.positions at h
  split at h
  · rename_i ls hvisible
    cases h
    obtain ⟨tokens, htokens, rfl⟩ := Option.map_eq_some_iff.mp hvisible
    obtain ⟨all, hall, rfl⟩ := Option.map_eq_some_iff.mp htokens
    have hsorted := (pairwise_of_lexemesFrom? hall).2
    have hsublist : (Placeholder.placesOf (visibleAfter none false
        (all.filter fun l => l.kind != .gap))).Sublist (all.map (·.start)) :=
      ((List.filter_sublist.map _).trans (visibleAfter_sublist _ _ _)).trans
        (List.filter_sublist.map _)
    exact hsorted.sublist hsublist
  · cases h

theorem nodup_positions {s : List Char} {places : List Nat}
    (h : Placeholder.positions s = .ok places) : places.Nodup :=
  (sorted_positions h).imp fun hlt => Nat.ne_of_lt hlt

end QueryGateway.Proofs.Sql.Marks
