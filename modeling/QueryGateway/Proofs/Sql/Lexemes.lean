import QueryGateway.Proofs.Sql.Names
import QueryGateway.Proofs.Text.Runs
import QueryGateway.Sql.Fragment
import QueryGateway.Sql.Token

/-!
Texts that are cut into lexemes of their own in front of others: names, literals, marks, words and
numbers. How many of these lexemes are parameter marks adds up over texts in a row.
-/

set_option autoImplicit false
set_option relaxedAutoImplicit false

namespace QueryGateway.Proofs.Sql.Lexemes

open QueryGateway.Sql
open QueryGateway.Sql.Token
open QueryGateway.Text
open QueryGateway.Text.Blank (isBlank)
open QueryGateway.Proofs.Sql.Names
open QueryGateway.Proofs.Text.Runs (takeWhile_parted dropWhile_parted)

/-! ## Texts with lexemes of their own -/

def isTame : Kind → Bool
  | .semicolon | .variable | .opening => false
  | _ => true

/-- A text that is cut into tame lexemes of its own in front of another, a number of them marks. -/
def Lexed (s rest : List Char) (marks : Nat) : Prop :=
  ∀ start, ∃ front : List Lexeme, (∀ l ∈ front, isTame l.kind = true) ∧
    front.countP (·.kind == .mark) = marks ∧
    lexemesFrom? start false (s ++ rest) =
      (lexemesFrom? (start + s.length) false rest).map (front ++ ·)

private theorem lexemesFrom?_nil (start : Nat) : lexemesFrom? start false [] = some [] := by
  rw [lexemesFrom?.eq_def]

private theorem lexemesFrom?_cons {c : Char} {r : List Char} {k : Kind} {more : Nat}
    (h : lexeme? false c r = some (k, more)) (start : Nat) :
    lexemesFrom? start false (c :: r) =
      (lexemesFrom? (start + more + 1) (if k = .gap then false else k = .variable)
        (r.drop more)).map (⟨k, start⟩ :: ·) := by
  rw [lexemesFrom?.eq_def]
  simp only [h]

theorem lexed_nil (rest : List Char) : Lexed [] rest 0 :=
  fun start => ⟨[], nofun, rfl, by simp⟩

theorem Lexed.append {s t rest : List Char} {m n : Nat} (hs : Lexed s (t ++ rest) m)
    (ht : Lexed t rest n) : Lexed (s ++ t) rest (m + n) := by
  intro start
  obtain ⟨front, hfront, hm, hcut⟩ := hs start
  obtain ⟨back, hback, hn, hcut'⟩ := ht (start + s.length)
  refine ⟨front ++ back, List.forall_mem_append.mpr ⟨hfront, hback⟩, ?_, ?_⟩
  · rw [List.countP_append, hm, hn]
  · rw [List.append_assoc, hcut, hcut', List.length_append, Nat.add_assoc]
    simp [Function.comp_def]

theorem Lexed.cons {c : Char} {t rest : List Char} {n : Nat} (hc : Lexed [c] (t ++ rest) 0)
    (ht : Lexed t rest n) : Lexed (c :: t) rest n := by
  have hall := hc.append ht
  rwa [Nat.zero_add] at hall

theorem lexed_lexeme {c : Char} {r rest : List Char} {k : Kind}
    (h : lexeme? false c (r ++ rest) = some (k, r.length)) (htame : isTame k = true) :
    Lexed (c :: r) rest (if k = .mark then 1 else 0) := by
  intro start
  have hflag : (if k = .gap then false else decide (k = .variable)) = false := by
    cases k <;> first | rfl | cases htame
  refine ⟨[⟨k, start⟩], List.forall_mem_singleton.mpr htame, ?_, ?_⟩
  · cases k <;> rfl
  · rw [List.cons_append, lexemesFrom?_cons h, hflag, List.drop_left]
    rfl

/-! ## What ends a lexeme -/

/-- Marks without letters that stand for themselves, whatever follows them. -/
def isSign (c : Char) : Bool := ['(', ')', ',', '=', '*'].contains c

private theorem of_isSign {p : Char → Prop} [DecidablePred p]
    (h : ['(', ')', ',', '=', '*'].all (p ·) = true) {c : Char} (hc : isSign c = true) : p c :=
  of_decide_eq_true (List.all_eq_true.mp h c (List.contains_iff_mem.mp hc))

def isBreak (c : Char) : Bool := isBlank c || isSign c

/-- A text that does not go on with the lexeme in front of it. -/
def isParted (s : List Char) : Bool := s.head?.all isBreak

theorem isParted_append {s rest : List Char} (hs : isParted s = true)
    (hrest : isParted rest = true) :
    isParted (s ++ rest) = true := by
  cases s with
  | nil => exact hrest
  | cons c s => exact hs

private theorem ne_of_isBreak {c d : Char} (h : isBreak c = true) (hd : isBreak d = false) :
    c ≠ d := by
  rintro rfl
  rw [h] at hd
  cases hd

private theorem head_ne_of_isParted {s : List Char} (h : isParted s = true) {d : Char}
    (hd : isBreak d = false) : s.head? ≠ some d := by
  cases s with
  | nil => nofun
  | cons c s => exact fun heq => ne_of_isBreak h hd (Option.some.inj heq)

private theorem isBlank_of_isWordChar {c : Char} (h : isWordChar c = true) : isBlank c = false := by
  rw [isWordChar, Bool.and_eq_true, Bool.not_eq_true'] at h
  exact h.1

private theorem isWordChar_of_isBreak {c : Char} (h : isBreak c = true) : isWordChar c = false := by
  rcases Bool.or_eq_true_iff.mp h with hblank | hsign
  · simp [isWordChar, hblank]
  · exact of_isSign (p := fun c => isWordChar c = false) (by decide) hsign

private theorem not_isWordChar_of_isParted {rest : List Char} (h : isParted rest = true) :
    ∀ d ∈ rest.head?, isWordChar d = false := by
  intro d hd
  rw [isParted, Option.mem_def.mp hd] at h
  exact isWordChar_of_isBreak h

theorem takeWhile_word {w rest : List Char} (hw : ∀ c ∈ w, isWordChar c = true)
    (hrest : isParted rest = true) : (w ++ rest).takeWhile isWordChar = w :=
  takeWhile_parted hw (not_isWordChar_of_isParted hrest)

private theorem dropWhile_word {w rest : List Char} (hw : ∀ c ∈ w, isWordChar c = true)
    (hrest : isParted rest = true) : (w ++ rest).dropWhile isWordChar = rest :=
  dropWhile_parted hw (not_isWordChar_of_isParted hrest)

/-! ## The first lexeme of a text -/

private theorem lexeme?_blank {c : Char} (h : isBlank c = true) (r : List Char) :
    lexeme? false c r = some (.gap, 0) := by
  unfold lexeme?
  rw [if_pos h]

private theorem markLength_eq_zero {c : Char} (hbrace : c ≠ '\x7b') (hdash : c ≠ '-')
    (r : List Char) :
    markLength c r = 0 := by
  unfold markLength
  split
  all_goals first | rfl | exact absurd rfl hbrace | exact absurd rfl hdash

private theorem lexeme?_sign {c : Char} (h : isSign c = true) (r : List Char) :
    lexeme? false c r = some (.other, 0) := by
  obtain ⟨hblank, hzero, hdigit, hword, hbrace, hdash⟩ :=
    of_isSign (p := fun c => isBlank c = false ∧ c ≠ '0' ∧ c.isDigit = false ∧
      isWordChar c = false ∧ c ≠ '\x7b' ∧ c ≠ '-') (by decide) h
  unfold lexeme?
  rw [if_neg (by simp [hblank]), if_neg (by simp [hzero]), if_neg (by simp [hdigit])]
  split
  all_goals first
    | exact absurd h (by decide)
    | skip
  rw [if_neg (by simp [hword]), markLength_eq_zero hbrace hdash]

private theorem lexeme?_backtick (r : List Char) :
    lexeme? false '`' r = (nameLength? r).map fun n => (.other, n) := by
  unfold lexeme?
  rw [if_neg (by decide), if_neg (by simp), if_neg (by decide)]
  simp only

private theorem lexeme?_quote (r : List Char) :
    lexeme? false '\'' r = (stringLength? '\'' r).map fun n => (.other, n) := by
  unfold lexeme?
  rw [if_neg (by decide), if_neg (by simp), if_neg (by decide)]
  simp only
  rfl

private theorem lexeme?_mark {r : List Char} (hmark : r.head? ≠ some '?')
    (hcolon : r.head? ≠ some ':') :
    lexeme? false '?' r = some (.mark, 0) := by
  unfold lexeme?
  rw [if_neg (by decide), if_neg (by simp), if_neg (by decide)]
  split <;> simp_all

theorem lexeme?_dash {d : Char} (hdash : d ≠ '-') (hbar : d ≠ '|') (r : List Char) :
    lexeme? false '-' (d :: r) = some (.other, 0) := by
  unfold lexeme?
  rw [if_neg (by decide), if_neg (by simp), if_neg (by decide)]
  split <;> simp_all [isWordChar, markLength, punctuation]

private theorem isBlank_of_isDigit {c : Char} (h : c.isDigit = true) : isBlank c = false := by
  simp only [Char.isDigit, Bool.and_eq_true, decide_eq_true_eq] at h
  have hlow : 48 ≤ c.toNat := h.1
  have hhigh : c.toNat ≤ 57 := h.2
  simp [isBlank]
  omega

/-- Letters that make a zero in front of them the start of a binary or hexadecimal literal. -/
def radixLetters : List Char := ['b', 'B', 'x', 'X']

theorem notMem_radixLetters {p : Char → Bool} (hp : radixLetters.any p = false) {c : Char}
    (hc : p c = true) : c ∉ radixLetters :=
  fun hmem => List.any_eq_false.mp hp c hmem hc

theorem head_notMem_radixLetters {s : List Char} (h : isParted s = true) :
    ∀ d ∈ s.head?, d ∉ radixLetters :=
  fun d hd => notMem_radixLetters (p := isBreak) (by decide) (Option.all_eq_true _ _ |>.mp h d hd)

theorem lexeme?_digit {c : Char} (hc : c.isDigit = true) {r : List Char}
    (hr : ∀ d ∈ r.head?, d ∉ radixLetters) :
    lexeme? false c r = some (.other, numberLength true 0 r) := by
  unfold lexeme?
  rw [if_neg (by simp [isBlank_of_isDigit hc]), if_neg, if_pos hc]
  · rfl
  · cases r with
    | nil => simp
    | cons d r =>
      have hd := hr d rfl
      simp only [radixLetters, List.mem_cons, List.not_mem_nil, or_false, not_or] at hd
      simp [hd]

/-- Words that neither open a block nor are part of a command of two words. -/
def isInert (w : List Char) : Bool :=
  wordKind w != .opening && !(isPlainly "LOCK" w || isPlainly "UNLOCK" w)

private theorem lexeme?_word {c : Char} {w rest : List Char}
    (hall : ∀ d ∈ c :: w, isWordChar d = true)
    (hc : c.isDigit = false) (hinert : isInert (c :: w) = true) (hrest : isParted rest = true) :
    lexeme? false c (w ++ rest) = some (wordKind (c :: w), w.length) := by
  obtain ⟨hfirst, hw⟩ := List.forall_mem_cons.mp hall
  have hzero : c ≠ '0' := by
    rintro rfl
    cases hc
  -- A letter with a quote behind it begins a literal; a quote is neither part of a word nor a break.
  have hquote : ∀ {q : Char} {t : List Char}, isWordChar q = false → isBreak q = false →
      w ++ rest ≠ q :: t := by
    intro q t hq hbreak heq
    cases w with
    | nil =>
      have hhead := head_ne_of_isParted hrest hbreak
      rw [List.nil_append] at heq
      exact hhead (by rw [heq]; rfl)
    | cons d w =>
      obtain ⟨rfl, _⟩ := List.cons.inj heq
      rw [(List.forall_mem_cons.mp hw).1] at hq
      cases hq
  have hword : wordLexeme (c :: w) rest = (wordKind (c :: w), (c :: w).length) := by
    simp only [isInert, Bool.and_eq_true, Bool.not_eq_true'] at hinert
    simp [wordLexeme, hinert.2]
  unfold lexeme?
  rw [if_neg (by simp [isBlank_of_isWordChar hfirst]), if_neg (by simp [hzero]),
    if_neg (by simp [hc])]
  split
  all_goals first
    | exact absurd hfirst (by decide)
    | exact absurd (by assumption) (hquote (by decide) (by decide))
    | skip
  rw [if_pos hfirst, takeWhile_word hw hrest, dropWhile_word hw hrest, hword]
  simp

/-! ## Names, literals and marks -/

theorem lexed_break {c : Char} (h : isBreak c = true) (rest : List Char) : Lexed [c] rest 0 := by
  rcases Bool.or_eq_true_iff.mp h with hblank | hsign
  · exact lexed_lexeme (r := []) (k := .gap) (lexeme?_blank hblank rest) rfl
  · exact lexed_lexeme (r := []) (k := .other) (lexeme?_sign hsign rest) rfl

theorem lexed_mark {rest : List Char} (hrest : isParted rest = true) : Lexed ['?'] rest 1 :=
  lexed_lexeme (r := []) (k := .mark) (lexeme?_mark (head_ne_of_isParted hrest (by decide))
    (head_ne_of_isParted hrest (by decide))) rfl

private theorem nameLength?_quoted {s rest : List Char} (hs : ∀ c ∈ s, c ≠ '`')
    (hrest : isParted rest = true) : nameLength? (s ++ '`' :: rest) = some (s.length + 1) := by
  induction s with
  | nil =>
    cases rest with
    | nil => rfl
    | cons d rest =>
      have hd : d ≠ '`' := ne_of_isBreak hrest (by decide)
      simp [nameLength?, hd]
  | cons c s ih =>
    obtain ⟨hc, hs⟩ := List.forall_mem_cons.mp hs
    have hafter := ih hs
    cases s with
    | nil => simpa [nameLength?, hc] using hafter
    | cons d s => simpa [nameLength?, hc] using hafter

theorem lexed_name (n : Name) {rest : List Char} (hrest : isParted rest = true) :
    Lexed n.quoted rest 0 := by
  have hchars : ∀ c ∈ n.chars, c ≠ '`' := by
    rintro c hc rfl
    exact absurd (isNameChar_of_mem hc) (by decide)
  refine lexed_lexeme (r := n.chars ++ ['`']) (k := .other) ?_ rfl
  rw [List.append_assoc, List.singleton_append, lexeme?_backtick,
    nameLength?_quoted hchars hrest]
  simp

private theorem stringLength?_cons {c d : Char} (hquote : c ≠ '\'') (hslash : c ≠ '\\')
    (hpair : c = '"' → d ≠ '"') (r : List Char) :
    stringLength? '\'' (c :: d :: r) = (stringLength? '\'' (d :: r)).map (· + 1) := by
  have hkept : ¬(c = '"' ∧ d = c) := by
    rintro ⟨rfl, rfl⟩
    exact hpair rfl rfl
  simp [stringLength?, hquote, hslash, hkept]

private theorem head_escapeChar (c : Char) : ∃ r, Fragment.escapeChar c = c :: r := by
  unfold Fragment.escapeChar
  split <;> exact ⟨_, rfl⟩

/-- A quoted text is read over its escapes; two double quotes in a row are read together. -/
private theorem stringLength?_escaped (content : List Char) {rest : List Char}
    (hrest : isParted rest = true) :
    stringLength? '\'' (content.flatMap Fragment.escapeChar ++ '\'' :: rest) =
      some ((content.flatMap Fragment.escapeChar).length + 1) := by
  -- The reader takes two double quotes in one step, so the recursion looks two characters ahead.
  match content with
  | [] =>
    cases rest with
    | nil => rfl
    | cons d rest =>
      have hd : d ≠ '\'' := ne_of_isBreak hrest (by decide)
      simp [stringLength?, hd]
  | c :: content =>
    have hafter := stringLength?_escaped content hrest
    by_cases hdoubled : c = '\'' ∨ c = '\\'
    · rcases hdoubled with rfl | rfl <;>
        simp [Fragment.escapeChar, stringLength?, hafter]
    obtain ⟨hquote, hslash⟩ := not_or.mp hdoubled
    have hone : Fragment.escapeChar c = [c] := by simp [Fragment.escapeChar, hquote, hslash]
    rw [List.flatMap_cons, hone]
    match content with
    | [] =>
      have hstep := stringLength?_cons hquote hslash (d := '\'') (fun _ => by decide) rest
      exact hstep.trans (congrArg (Option.map (· + 1)) hafter)
    | d :: content =>
      by_cases hpair : c = '"' ∧ d = '"'
      · obtain ⟨rfl, rfl⟩ := hpair
        have hskip := stringLength?_escaped content hrest
        simp [Fragment.escapeChar, stringLength?, hskip]
      · obtain ⟨r, hr⟩ := head_escapeChar d
        have hstep := stringLength?_cons hquote hslash fun hc hd => hpair ⟨hc, hd⟩
        rw [List.flatMap_cons, hr] at hafter ⊢
        exact (hstep _).trans (congrArg (Option.map (· + 1)) hafter)

theorem lexed_literal (content : List Char) {rest : List Char} (hrest : isParted rest = true) :
    Lexed (Fragment.quoteLiteral content) rest 0 := by
  refine lexed_lexeme (r := content.flatMap Fragment.escapeChar ++ ['\'']) (k := .other) ?_ rfl
  rw [List.append_assoc, List.singleton_append, lexeme?_quote, stringLength?_escaped content hrest]
  simp

/-! ## Words -/

/-- A word, or none, that does not start with a digit and leaves the reading as it is. -/
def isClearWord : List Char → Bool
  | [] => true
  | c :: w => !c.isDigit && isInert (c :: w)

theorem lexed_word {w rest : List Char} (hw : ∀ c ∈ w, isWordChar c = true)
    (hclear : isClearWord w = true) (hrest : isParted rest = true) : Lexed w rest 0 := by
  cases w with
  | nil => exact lexed_nil rest
  | cons c w =>
    rw [isClearWord, Bool.and_eq_true, Bool.not_eq_true'] at hclear
    have hlexeme := lexeme?_word hw hclear.1 hclear.2 hrest
    have hkind : isTame (wordKind (c :: w)) = true ∧ wordKind (c :: w) ≠ .mark := by
      have hinert := hclear.2
      rw [isInert, Bool.and_eq_true, bne_iff_ne] at hinert
      unfold wordKind at hinert ⊢
      split
      · exact ⟨rfl, by decide⟩
      · split
        · simp_all
        · exact ⟨rfl, by decide⟩
    have hall := lexed_lexeme hlexeme hkind.1
    rwa [if_neg hkind.2] at hall

/-- Whether a text, given backwards the word in front of it, is words with breaks between them; a
closed one ends in a break. -/
def isClearFrom (closed : Bool) (before : List Char) : List Char → Bool
  | [] => if closed then before.isEmpty else isClearWord before.reverse
  | c :: r =>
    if isWordChar c then isClearFrom closed (c :: before) r
    else isClearWord before.reverse && isBreak c && isClearFrom closed [] r

theorem lexed_of_isClearFrom {closed : Bool} {before s rest : List Char}
    (h : isClearFrom closed before s = true) (hbefore : ∀ c ∈ before, isWordChar c = true)
    (hrest : closed = false → isParted rest = true) : Lexed (before.reverse ++ s) rest 0 := by
  have hword : ∀ c ∈ before.reverse, isWordChar c = true :=
    fun c hc => hbefore c (List.mem_reverse.mp hc)
  -- A word character joins the word in front; a break ends it, and a new word begins behind.
  induction s generalizing before with
  | nil =>
    rw [List.append_nil]
    cases closed with
    | true =>
      rw [List.isEmpty_iff.mp h]
      exact lexed_nil rest
    | false => exact lexed_word hword h (hrest rfl)
  | cons c s ih =>
    rw [isClearFrom] at h
    split at h
    · rename_i hc
      have hall := ih h (List.forall_mem_cons.mpr ⟨hc, hbefore⟩)
        (fun d hd => by
          rw [List.reverse_cons] at hd
          rcases List.mem_append.mp hd with hd | hd
          · exact hword d hd
          · exact List.mem_singleton.mp hd ▸ hc)
      rwa [List.reverse_cons, List.append_assoc] at hall
    · simp only [Bool.and_eq_true] at h
      obtain ⟨⟨hclear, hbreak⟩, hrest'⟩ := h
      have hafter := (lexed_break hbreak (s ++ rest)).cons (ih hrest' nofun nofun)
      have hfront : Lexed before.reverse (c :: s ++ rest) 0 := lexed_word hword hclear hbreak
      have hall := hfront.append hafter
      rwa [Nat.zero_add] at hall

/-! ## Numbers -/

private theorem isDigit_of_isBreak {c : Char} (h : isBreak c = true) : c.isDigit = false := by
  cases hc : c.isDigit with
  | false => rfl
  | true =>
    rcases Bool.or_eq_true_iff.mp h with hblank | hsign
    · rw [isBlank_of_isDigit hc] at hblank
      cases hblank
    · rw [of_isSign (p := fun c => c.isDigit = false) (by decide) hsign] at hc
      cases hc

theorem numberLength_parted (point : Bool) (exponent : Nat) {rest : List Char}
    (hrest : isParted rest = true) : numberLength point exponent rest = 0 := by
  cases rest with
  | nil => rfl
  | cons c rest =>
    have hne : ∀ {d : Char}, isBreak d = false → c ≠ d := ne_of_isBreak hrest
    have hdot := hne (d := '.') (by decide)
    have hminus := hne (d := '-') (by decide)
    have hplus := hne (d := '+') (by decide)
    have hsmall := hne (d := 'e') (by decide)
    have hcapital := hne (d := 'E') (by decide)
    simp [numberLength, isDigit_of_isBreak hrest, hdot, hminus, hplus, hsmall, hcapital,
      wordLength, isWordChar_of_isBreak hrest]

private theorem numberLength_digits {ds : List Char} (hds : ∀ c ∈ ds, c.isDigit = true)
    (point : Bool) (exponent : Nat) (rest : List Char) :
    numberLength point exponent (ds ++ rest) = ds.length + numberLength point exponent rest := by
  induction ds with
  | nil => simp
  | cons c ds ih =>
    obtain ⟨hc, hds⟩ := List.forall_mem_cons.mp hds
    simp [numberLength, hc, ih hds]
    omega

/-- A point with digits behind it, or nothing. -/
def IsFraction (s : List Char) : Prop :=
  s = [] ∨ ∃ ds, s = '.' :: ds ∧ ∀ c ∈ ds, c.isDigit = true

/-- An exponent with its sign, or nothing. -/
def IsExponent (s : List Char) : Prop :=
  s = [] ∨ ∃ sign d ds, s = 'e' :: sign :: d :: ds ∧ (sign = '-' ∨ sign = '+') ∧
    ∀ c ∈ d :: ds, c.isDigit = true

private theorem numberLength_exponent {s rest : List Char} (h : IsExponent s) (point : Bool)
    (hrest : isParted rest = true) : numberLength point 0 (s ++ rest) = s.length := by
  rcases h with rfl | ⟨sign, d, ds, rfl, hsign, hds⟩
  · exact numberLength_parted point 0 hrest
  · have hdigits := numberLength_digits hds point 2 rest
    have hd := (List.forall_mem_cons.mp hds).1
    rw [numberLength_parted point 2 hrest] at hdigits
    rcases hsign with rfl | rfl <;> simp_all [numberLength]

private theorem numberLength_fraction {s t rest : List Char} (hs : IsFraction s) (ht : IsExponent t)
    (hrest : isParted rest = true) :
    numberLength true 0 (s ++ t ++ rest) = s.length + t.length := by
  rcases hs with rfl | ⟨ds, rfl, hds⟩
  · simpa using numberLength_exponent ht true hrest
  · have hdigits := numberLength_digits hds false 0 (t ++ rest)
    rw [numberLength_exponent ht false hrest] at hdigits
    simp [numberLength, hdigits]
    omega

theorem forall_head_append {p : Char → Prop} {s t : List Char} (hs : ∀ c ∈ s.head?, p c)
    (ht : ∀ c ∈ t.head?, p c) : ∀ c ∈ (s ++ t).head?, p c := by
  cases s with
  | nil => exact ht
  | cons d s => exact hs

theorem lexed_number {ds s t rest : List Char} (hne : ds ≠ [])
    (hds : ∀ c ∈ ds, c.isDigit = true) (hs : IsFraction s) (ht : IsExponent t)
    (hrest : isParted rest = true) : Lexed (ds ++ s ++ t) rest 0 := by
  cases ds with
  | nil => exact absurd rfl hne
  | cons c ds =>
    obtain ⟨hc, hds⟩ := List.forall_mem_cons.mp hds
    have hlength : numberLength true 0 (ds ++ s ++ t ++ rest) = (ds ++ s ++ t).length := by
      have hfraction := numberLength_fraction hs ht hrest
      have hall := numberLength_digits hds true 0 (s ++ t ++ rest)
      rw [hfraction] at hall
      simp only [List.append_assoc, List.length_append] at hall ⊢
      exact hall
    have hhead : ∀ d ∈ (ds ++ s ++ t ++ rest).head?, d ∉ radixLetters := by
      refine forall_head_append (forall_head_append (forall_head_append ?_ ?_) ?_)
        (head_notMem_radixLetters hrest)
      · exact fun d hd =>
          notMem_radixLetters (p := Char.isDigit) (by decide) (hds d (List.mem_of_mem_head? hd))
      · rcases hs with rfl | ⟨fs, rfl, _⟩ <;> simp [radixLetters]
      · rcases ht with rfl | ⟨sign, e, es, rfl, _⟩ <;> simp [radixLetters]
    refine lexed_lexeme (r := ds ++ s ++ t) (k := .other) ?_ rfl
    rw [lexeme?_digit hc hhead, hlength]

/-! ## Counting marks -/

private theorem visibleAfter_eq {k : Kind} (hk : isTame k = true) (ls : List Lexeme)
    (hls : ∀ l ∈ ls, isTame l.kind = true) : visibleAfter (some k) false ls = ls := by
  induction ls generalizing k with
  | nil => rfl
  | cons l ls ih =>
    obtain ⟨hl, hrest⟩ := List.forall_mem_cons.mp hls
    have hafter := ih hl hrest
    have hne : ∀ {j : Kind}, isTame j = false → (k == j) = false := by
      intro j hj
      refine beq_eq_false_iff_ne.mpr ?_
      rintro rfl
      rw [hk] at hj
      cases hj
    simp [visibleAfter, hafter, hne (j := .semicolon) rfl, hne (j := .variable) rfl,
      hne (j := .opening) rfl]

/-- Words with which statements begin that are no commands. -/
def verbs : List String := ["SELECT", "INSERT", "UPDATE", "DELETE", "ALTER", "CREATE", "DROP"]

/-- A text whose first word is one of the verbs. -/
def Begins (s : List Char) : Prop := ∃ verb ∈ verbs, ∃ r, s = verb.toList ++ ' ' :: r

private theorem lexemesFrom?_begins {s : List Char} (h : Begins s) {ls : List Lexeme}
    (hls : lexemesFrom? 0 false s = some ls) : ∃ back, ls = ⟨.other, 0⟩ :: back := by
  have hverbs : ∀ verb ∈ verbs, verb.toList ≠ [] ∧ verb.toList.all isWordChar = true ∧
      isClearWord verb.toList = true ∧ wordKind verb.toList = .other := by
    decide
  obtain ⟨verb, hverb, r, rfl⟩ := h
  obtain ⟨hne, hword, hclear, hkind⟩ := hverbs verb hverb
  cases hchars : verb.toList with
  | nil => exact absurd hchars hne
  | cons c w =>
    rw [hchars] at hword hclear hkind hls
    rw [List.all_eq_true] at hword
    rw [isClearWord, Bool.and_eq_true, Bool.not_eq_true'] at hclear
    rw [List.cons_append, lexemesFrom?_cons (lexeme?_word hword hclear.1 hclear.2 rfl),
      hkind] at hls
    obtain ⟨back, _, rfl⟩ := Option.map_eq_some_iff.mp hls
    exact ⟨back, rfl⟩

theorem count_of_lexed {s : List Char} {marks : Nat} (h : Lexed s [] marks) (hbegins : Begins s) :
    Placeholder.count s = .ok marks := by
  obtain ⟨front, htame, hmarks, hcut⟩ := h 0
  have hall : lexemesFrom? 0 false s = some front := by
    rw [List.append_nil, lexemesFrom?_nil] at hcut
    simpa using hcut
  obtain ⟨back, rfl⟩ := lexemesFrom?_begins hbegins hall
  have hback : ∀ l ∈ back.filter (fun l => l.kind != .gap), isTame l.kind = true :=
    fun l hl => htame l (List.mem_cons_of_mem _ (List.mem_filter.mp hl).1)
  have hvisible : visible? s = some (⟨.other, 0⟩ :: back.filter fun l => l.kind != .gap) := by
    have hword : (Kind.other == Kind.command) = false := rfl
    rw [visible?, tokens?, hall]
    simpa [visibleAfter, hword] using visibleAfter_eq (k := .other) rfl _ hback
  have hseen : (back.filter fun l => l.kind != .gap).countP (·.kind == .mark) = marks := by
    rw [List.countP_filter, ← hmarks, List.countP_cons_of_neg (by simp)]
    refine List.countP_congr fun l _ => ?_
    cases l.kind <;> decide
  rw [Placeholder.count, Placeholder.positions, hvisible, ← hseen, List.countP_eq_length_filter]
  simp [Placeholder.placesOf, Except.map]

end QueryGateway.Proofs.Sql.Lexemes
