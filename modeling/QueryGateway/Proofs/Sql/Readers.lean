import QueryGateway.Number.Numeral
import QueryGateway.Proofs.Sql.Lexical
import QueryGateway.Proofs.Text.Runs

/-!
Readers of statements. A reader takes text off the front of a statement, and with each parameter
mark the next parameter. It takes fragments if it reads their text and their parameters, and no
more, whenever the text behind them starts with none of a few words.
-/

set_option autoImplicit false
set_option relaxedAutoImplicit false

namespace QueryGateway.Proofs.Sql.Readers

open QueryGateway.Sql
open QueryGateway.Number
open QueryGateway.Proofs.Sql.Lexical (render_append render_cons)
open QueryGateway.Proofs.Sql.Names
open QueryGateway.Proofs.Text.Runs (takeWhile_parted dropWhile_parted)

/-- What is left to read: the text of a statement, and the parameters of the marks in it. -/
structure Input where
  text : List Char
  params : List Value

abbrev Reader (α : Type) := StateT Input Option α

variable {α β : Type}

/-! ## Readers -/

/-- Reads on behind a word if the text starts with it, and in another way if not. -/
def after (word : String) (body other : Reader α) : Reader α := fun i =>
  if word.toList.isPrefixOf i.text then body { i with text := i.text.drop word.toList.length }
  else other i

def word (s : String) : Reader Unit := after s (pure ()) failure

def run (p : Char → Bool) : Reader (List Char) := fun i =>
  some (i.text.takeWhile p, { i with text := i.text.dropWhile p })

def name : Reader String := do
  word "`"
  let chars ← run (· != '`')
  word "`"
  return String.ofList chars

def number : Reader Int := do
  let digits ← run Char.isDigit
  return Int.ofNat (Nat.ofDigitChars 10 digits 0)

def mark : Reader Value := do
  word "?"
  fun i =>
    match i.params with
    | [] => none
    | v :: vs => some (v, { i with params := vs })

def upTo (separator : String) (item : Reader α) : Nat → Reader (List α)
  | 0 => failure
  | n + 1 => do
    let a ← item
    after separator (do return a :: (← upTo separator item n)) (pure [a])

/-- Items with a separator between each two. No text holds more of them than characters and one. -/
def listOf (separator : String) (item : Reader α) : Reader (List α) := fun i =>
  upTo separator item (i.text.length + 1) i

/-! ## What follows -/

/-- A text that starts with none of some words. -/
def Avoids (ks : List String) (t : List Char) : Prop := ∀ k ∈ ks, k.toList.isPrefixOf t = false

/-- Whether two texts differ in a place that both have. -/
def differ : List Char → List Char → Bool
  | c :: s, d :: t => c != d || differ s t
  | _, _ => false

/-- Whether a word starts like none of some words. -/
def isApart (ks : List String) (s : String) : Bool := ks.all fun k => differ k.toList s.toList

/-- A text that is empty or starts with a word. -/
def Opens (s : String) (t : List Char) : Prop := t = [] ∨ s.toList <+: t

private theorem isPrefixOf_of_differ {s t : List Char} (h : differ s t = true) (rest : List Char) :
    s.isPrefixOf (t ++ rest) = false := by
  induction s generalizing t with
  | nil => simp [differ] at h
  | cons c s ih =>
    cases t with
    | nil => simp [differ] at h
    | cons d t =>
      simp only [differ, Bool.or_eq_true, bne_iff_ne, ne_eq] at h
      simp only [List.cons_append, List.isPrefixOf, Bool.and_eq_false_iff, beq_eq_false_iff_ne,
        ne_eq]
      exact h.imp id fun h => ih h

private theorem avoids_word {ks : List String} {s : String} (h : isApart ks s = true)
    (rest : List Char) :
    Avoids ks (s.toList ++ rest) := fun k hk =>
  isPrefixOf_of_differ (List.all_eq_true.mp h k hk) rest

theorem avoids_opens {ks : List String} {s : String} {t rest : List Char}
    (h : isApart ks s = true) (ht : Opens s t) (hrest : Avoids ks rest) :
    Avoids ks (t ++ rest) := by
  rcases ht with rfl | ⟨u, rfl⟩
  · exact hrest
  · rw [List.append_assoc]
    exact avoids_word h (u ++ rest)

theorem avoids_nil {ks : List String} (h : ks.all (fun k => !k.toList.isEmpty) = true) :
    Avoids ks [] := by
  intro k hk
  have hne := List.all_eq_true.mp h k hk
  cases ht : k.toList with
  | nil => simp [ht] at hne
  | cons c s => rfl

theorem Avoids.mono {ks ls : List String} {t : List Char} (h : Avoids ls t)
    (hks : ∀ k ∈ ks, k ∈ ls) : Avoids ks t := fun k hk => h k (hks k hk)

/-! ## Readers that take fragments -/

/-- A reader takes fragments with their parameters, and gives a result. -/
def Takes (r : Reader α) (fs : List Fragment) (vs : List Value) (ks : List String) (a : α) : Prop :=
  ∀ rest more, Avoids ks rest →
    r ⟨Fragment.render fs ++ rest, vs ++ more⟩ = some (a, ⟨rest, more⟩)

theorem Takes.of_eq {r : Reader α} {fs gs : List Fragment} {vs ws : List Value} {ks : List String}
    {a : α} (h : Takes r fs vs ks a) (hf : Fragment.render gs = Fragment.render fs) (hv : ws = vs) :
    Takes r gs ws ks a := by
  intro rest more hrest
  rw [hf, hv]
  exact h rest more hrest

theorem Takes.mono {r : Reader α} {fs : List Fragment} {vs : List Value} {ks ls : List String}
    {a : α} (h : Takes r fs vs ks a) (hks : ∀ k ∈ ks, k ∈ ls) : Takes r fs vs ls a :=
  fun rest more hrest => h rest more (hrest.mono hks)

theorem takes_pure (a : α) : Takes (pure a) [] [] [] a := fun _ _ _ => rfl

private theorem bind_eq {r : Reader α} {f : α → Reader β} {i j : Input} {a : α}
    (h : r i = some (a, j)) : (r >>= f) i = f a j := by
  change (r i >>= fun p => f p.1 p.2) = _
  rw [h]
  rfl

theorem Takes.bind {r : Reader α} {f : α → Reader β} {fs gs : List Fragment} {vs ws : List Value}
    {ks ls : List String} {a : α} {b : β} (hr : Takes r fs vs ks a) (hf : Takes (f a) gs ws ls b)
    (hks : ∀ rest, Avoids ls rest → Avoids ks (Fragment.render gs ++ rest)) :
    Takes (r >>= f) (fs ++ gs) (vs ++ ws) ls b := by
  intro rest more hrest
  have hfirst := hr (Fragment.render gs ++ rest) (ws ++ more) (hks rest hrest)
  rw [render_append, List.append_assoc, List.append_assoc, bind_eq hfirst]
  exact hf rest more hrest

theorem Takes.andThen {r : Reader α} {f : α → Reader β} {fs gs : List Fragment}
    {vs ws : List Value} {ls : List String} {a : α} {b : β} (hr : Takes r fs vs [] a)
    (hf : Takes (f a) gs ws ls b) : Takes (r >>= f) (fs ++ gs) (vs ++ ws) ls b :=
  hr.bind hf fun _ _ => nofun

theorem Takes.before {r : Reader α} {f : α → Reader β} {fs gs : List Fragment} {s : String}
    {vs ws : List Value} {ks ls : List String} {a : α} {b : β} (hr : Takes r fs vs ks a)
    (hf : Takes (f a) (.words s :: gs) ws ls b) (hks : isApart ks s = true) :
    Takes (r >>= f) (fs ++ .words s :: gs) (vs ++ ws) ls b := by
  refine hr.bind hf fun rest _ => ?_
  rw [render_cons, List.append_assoc]
  exact avoids_word hks _

theorem Takes.alone {r : Reader α} {f : α → Reader β} {fs : List Fragment} {vs : List Value}
    {ks ls : List String} {a : α} {b : β} (hr : Takes r fs vs ks a) (hf : Takes (f a) [] [] ls b)
    (hks : ∀ k ∈ ks, k ∈ ls) : Takes (r >>= f) fs vs ls b := by
  have hboth := hr.bind hf fun _ hrest => hrest.mono hks
  rw [List.append_nil, List.append_nil] at hboth
  exact hboth

theorem Takes.map {r : Reader α} {fs : List Fragment} {vs : List Value} {ks : List String} {a : α}
    (hr : Takes r fs vs ks a) (f : α → β) : Takes (do return f (← r)) fs vs ks (f a) :=
  hr.alone ((takes_pure (f a)).mono nofun) fun _ hk => hk

/-! ## Words -/

private theorem isPrefixOf_append (s rest : List Char) : s.isPrefixOf (s ++ rest) = true :=
  List.isPrefixOf_iff_prefix.mpr (List.prefix_append s rest)

theorem takes_after {s : String} {body other : Reader α} {fs : List Fragment} {vs : List Value}
    {ks : List String} {a : α} (h : Takes body fs vs ks a) :
    Takes (after s body other) (.words s :: fs) vs ks a := by
  intro rest more hrest
  have hprefix := isPrefixOf_append s.toList (Fragment.render fs ++ rest)
  rw [render_cons, List.append_assoc]
  change (if s.toList.isPrefixOf (s.toList ++ _) then _ else _) = _
  rw [if_pos hprefix]
  change body ⟨(s.toList ++ _).drop s.toList.length, _⟩ = _
  rw [List.drop_left]
  exact h rest more hrest

theorem takes_other {s : String} {body other : Reader α} {fs : List Fragment} {vs : List Value}
    {ks : List String} {a : α} (h : Takes other fs vs ks a)
    (hs : ∀ rest, Avoids ks rest → s.toList.isPrefixOf (Fragment.render fs ++ rest) = false) :
    Takes (after s body other) fs vs ks a := by
  intro rest more hrest
  change (if s.toList.isPrefixOf (Fragment.render fs ++ rest) then _ else _) = _
  rw [if_neg (by rw [hs rest hrest]; exact Bool.false_ne_true)]
  exact h rest more hrest

theorem takes_unlike {s u : String} {body other : Reader α} {fs : List Fragment}
    {vs : List Value} {ks : List String} {a : α} (h : Takes other (.words u :: fs) vs ks a)
    (hs : differ s.toList u.toList = true) :
    Takes (after s body other) (.words u :: fs) vs ks a := by
  refine takes_other h fun rest _ => ?_
  rw [render_cons, List.append_assoc]
  exact isPrefixOf_of_differ hs _

theorem takes_missing (s : String) (body : Reader α) (a : α) :
    Takes (after s body (pure a)) [] [] [s] a :=
  takes_other ((takes_pure a).mono nofun) fun _ hrest => hrest s (List.mem_singleton_self s)

theorem takes_word (s : String) : Takes (word s) [.words s] [] [] () := takes_after (takes_pure ())

/-! ## Names, marks and numbers -/

private theorem run_append {p : Char → Bool} {s rest : List Char} (more : List Value)
    (hs : ∀ c ∈ s, p c = true) (hrest : rest.head?.any p = false) :
    run p ⟨s ++ rest, more⟩ = some (s, ⟨rest, more⟩) := by
  have hparted : ∀ d ∈ rest.head?, p d = false := by
    intro d hd
    rw [Option.mem_def.mp hd] at hrest
    exact hrest
  change some ((s ++ rest).takeWhile p, (⟨(s ++ rest).dropWhile p, more⟩ : Input)) = _
  rw [takeWhile_parted hs hparted, dropWhile_parted hs hparted]

private theorem ne_backtick {n : Name} (c : Char) (hc : c ∈ n.chars) : (c != '`') = true := by
  have hname := isNameChar_of_mem hc
  rw [bne_iff_ne]
  rintro rfl
  exact absurd hname (by decide)

theorem takes_name (n : Name) : Takes name [.name n] [] [] n.text := by
  intro rest more _
  have hbacktick : ∀ t, word "`" ⟨'`' :: t, more⟩ = some ((), ⟨t, more⟩) := fun _ => rfl
  have hrun : run (· != '`') ⟨n.chars ++ '`' :: rest, more⟩ = some (n.chars, ⟨'`' :: rest, more⟩) :=
    run_append more ne_backtick rfl
  have htext : Fragment.render [.name n] ++ rest = '`' :: (n.chars ++ '`' :: rest) := by
    simp [Fragment.render, Fragment.chars, Name.quoted]
  rw [htext, List.nil_append, name, bind_eq (hbacktick _), bind_eq hrun, bind_eq (hbacktick rest)]
  rfl

theorem takes_mark (v : Value) : Takes mark [.mark] [v] [] v := fun _ _ _ => rfl

def digitWords : List String := ["0", "1", "2", "3", "4", "5", "6", "7", "8", "9"]

private theorem exists_digitWord {c : Char} (h : c.isDigit = true) :
    ∃ k ∈ digitWords, k.toList = [c] := by
  have hall : ∀ n < 58, (Char.ofNat n).isDigit = true →
      ∃ k ∈ digitWords, k.toList = [Char.ofNat n] := by decide
  have hrange : 48 ≤ c.toNat ∧ c.toNat ≤ 57 := by
    simpa [Char.isDigit, UInt32.le_iff_toNat_le] using h
  have hword := hall c.toNat (by omega)
  rw [Char.ofNat_toNat] at hword
  exact hword h

theorem takes_number {i : Int} (h : 0 ≤ i) :
    Takes number [.words (String.ofList (Numeral.ofInt i))] [] digitWords i := by
  intro rest more hrest
  have hhead : rest.head?.any Char.isDigit = false := by
    cases rest with
    | nil => rfl
    | cons c rest =>
      by_contra hc
      obtain ⟨k, hk, htext⟩ := exists_digitWord (c := c) (by simpa using hc)
      have hapart := hrest k hk
      rw [htext] at hapart
      simp [List.isPrefixOf] at hapart
  have hdigits : ∀ c ∈ Nat.toDigits 10 i.natAbs, c.isDigit = true := fun c hc =>
    Nat.isDigit_of_mem_toDigits (by decide) (by decide) hc
  have htext : Fragment.render [.words (String.ofList (Numeral.ofInt i))] ++ rest =
      Nat.toDigits 10 i.natAbs ++ rest := by
    simp [Fragment.render, Fragment.chars, Numeral.ofInt, Numeral.digits, Int.not_lt.mpr h]
  rw [htext, List.nil_append, number, bind_eq (run_append more hdigits hhead)]
  change some (Int.ofNat (Nat.ofDigitChars 10 (Nat.toDigits 10 i.natAbs) 0), _) = _
  rw [Nat.ofDigitChars_ten_toDigits, Int.ofNat_eq_natCast, Int.natAbs_of_nonneg h]

/-! ## Lists -/

section

variable {ι : Type} {separator : String} {item : Reader α} {ks : List String}
variable {text : ι → List Fragment} {params : ι → List Value} {result : ι → α}

private theorem takes_upTo {xs : List ι} {n : Nat} (hne : xs ≠ []) (hn : xs.length ≤ n)
    (hks : isApart ks separator = true)
    (h : ∀ x ∈ xs, Takes item (text x) (params x) ks (result x)) :
    Takes (upTo separator item n) (Fragment.separated separator (xs.map text))
      (xs.flatMap params) (separator :: ks) (xs.map result) := by
  induction xs generalizing n with
  | nil => exact absurd rfl hne
  | cons x xs ih =>
    cases n with
    | zero => exact absurd hn (by simp)
    | succ n =>
      have hx := h x List.mem_cons_self
      cases xs with
      | nil =>
        have hmissing : Takes (after separator (do return result x :: (← upTo separator item n))
            (pure [result x])) [] [] (separator :: ks) [result x] :=
          (takes_missing _ _ _).mono (by simp)
        rw [List.flatMap_singleton]
        exact hx.alone hmissing fun _ => List.mem_cons_of_mem _
      | cons y ys =>
        have hrest := ih (by simp) (by simpa using hn) fun z hz => h z (List.mem_cons_of_mem x hz)
        exact hx.before (takes_after (hrest.map (result x :: ·))) hks

private theorem length_le_render {parts : List (List Fragment)} (hsep : separator.toList ≠ []) :
    parts.length ≤ (Fragment.render (Fragment.separated separator parts)).length + 1 := by
  have hpos : 0 < separator.toList.length := List.length_pos_iff.mpr hsep
  fun_induction Fragment.separated separator parts with
  | case1 => simp
  | case2 => simp
  | case3 p q ps ih =>
    rw [render_append, render_cons, List.length_append, List.length_append]
    simp only [List.length_cons, Fragment.chars] at ih ⊢
    omega

theorem takes_listOf (separator : String) {xs : List ι} (hne : xs ≠ [])
    (hsep : separator.toList ≠ []) (hks : isApart ks separator = true)
    (h : ∀ x ∈ xs, Takes item (text x) (params x) ks (result x)) :
    Takes (listOf separator item) (Fragment.separated separator (xs.map text))
      (xs.flatMap params) (separator :: ks) (xs.map result) := by
  intro rest more hrest
  refine takes_upTo hne ?_ hks h rest more hrest
  have hlength : (xs.map text).length ≤ _ := length_le_render hsep
  rw [List.length_map] at hlength
  simp only [List.length_append]
  omega

end

end QueryGateway.Proofs.Sql.Readers
