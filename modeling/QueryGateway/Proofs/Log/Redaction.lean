import QueryGateway.Log.Line
import QueryGateway.Proofs.Text.Runs

/-!
Where passwords are masked. The text in front of a password has one form, and neither it nor the
password holds white space, so texts with white space between them are masked one by one.
-/

set_option autoImplicit false
set_option relaxedAutoImplicit false

namespace QueryGateway.Proofs.Log.Redaction

open QueryGateway.Log.Redaction
open QueryGateway.Text
open QueryGateway.Text.Blank (isBlank)
open QueryGateway.Text.Word (isWord)
open QueryGateway.Proofs.Text.Runs (dropWhile_parted head?_dropWhile takeWhile_parted)

variable {p : Char → Bool} {a b front password r s t : List Char}

/-! ## Parts of a text -/

private theorem after?_eq_some_iff : after? front s = some r ↔ s = front ++ r := by
  rw [after?]
  constructor
  · intro h
    split at h
    · rename_i hprefix
      obtain ⟨t, rfl⟩ := List.isPrefixOf_iff_prefix.mp hprefix
      cases h
      rw [List.drop_left]
    · cases h
  · rintro rfl
    rw [if_pos (List.isPrefixOf_iff_prefix.mpr (List.prefix_append _ _)), List.drop_left]

private theorem span?_eq_some_iff :
    span? p s = some (a, b) ↔
      s = a ++ b ∧ a ≠ [] ∧ (∀ c ∈ a, p c = true) ∧ ∀ d ∈ b.head?, p d = false := by
  rw [span?]
  constructor
  · intro h
    split at h
    · cases h
    · rename_i hne
      cases h
      exact ⟨List.takeWhile_append_dropWhile.symm, by simpa using hne,
        fun c hc => List.mem_takeWhile_imp hc, head?_dropWhile⟩
  · rintro ⟨rfl, hne, ha, hb⟩
    rw [takeWhile_parted ha hb, dropWhile_parted ha hb, if_neg (by simpa using hne)]

/-! ## What stands in front of a password -/

/-- The name of a driver behind a plus sign, or nothing. -/
def IsDriver (s : List Char) : Prop :=
  s = [] ∨ ∃ w, s = '+' :: w ∧ w ≠ [] ∧ ∀ c ∈ w, isWord c = true

/-- The scheme of a connection URL, perhaps with a driver. -/
def IsScheme (s : List Char) : Prop :=
  ∃ two driver, s = "mysql".toList ++ (two ++ driver) ∧ (two = [] ∨ two = ['2']) ∧ IsDriver driver

/-- The beginning of a connection URL up to the password: scheme, user and the marks behind both. -/
def IsFront (s : List Char) : Prop :=
  ∃ scheme user, s = scheme ++ ("://".toList ++ (user ++ [':'])) ∧ IsScheme scheme ∧ user ≠ [] ∧
    ∀ c ∈ user, isUserChar c = true

/-- A text that can be masked as a password. -/
structure IsSecret (s : List Char) : Prop where
  nonempty : s ≠ []
  chars : ∀ c ∈ s, isPasswordChar c = true

private theorem afterDriver?_eq_some_iff (hr : r.head? = some ':') :
    afterDriver? s = some r ↔ ∃ driver, s = driver ++ r ∧ IsDriver driver := by
  have hstart : ∀ d ∈ r.head?, isWord d = false := by
    rw [hr]
    rintro _ ⟨⟩
    decide
  constructor
  · intro h
    unfold afterDriver? at h
    split at h
    · rename_i s
      split at h
      · cases h
      · rename_i hne
        cases h
        refine ⟨'+' :: s.takeWhile isWord, by simp, .inr ⟨_, rfl, by simpa using hne, ?_⟩⟩
        exact fun c hc => List.mem_takeWhile_imp hc
    · cases h
      exact ⟨[], rfl, .inl rfl⟩
  · rintro ⟨driver, rfl, rfl | ⟨w, rfl, hne, hw⟩⟩
    · obtain ⟨d, r, rfl⟩ := List.exists_cons_of_ne_nil (List.ne_nil_of_mem (List.mem_of_head? hr))
      cases hr
      rfl
    · rw [List.cons_append, afterDriver?, takeWhile_parted hw hstart, dropWhile_parted hw hstart,
        if_neg (by simpa using hne)]

private theorem afterScheme?_eq_some_iff :
    afterScheme? s = some r ↔ ∃ scheme, s = scheme ++ ("://".toList ++ r) ∧ IsScheme scheme := by
  simp only [afterScheme?, Option.bind_eq_bind, Option.bind_eq_some_iff, after?_eq_some_iff]
  constructor
  · rintro ⟨s, rfl, _, hdriver, rfl⟩
    obtain ⟨driver, hs, hisDriver⟩ := (afterDriver?_eq_some_iff rfl).mp hdriver
    cases htwo : after? ['2'] s with
    | none =>
      rw [htwo, Option.getD_none] at hs
      exact ⟨_, by simp [hs], [], driver, rfl, .inl rfl, hisDriver⟩
    | some s' =>
      rw [htwo, Option.getD_some] at hs
      rw [after?_eq_some_iff.mp htwo, hs]
      exact ⟨_, by simp, ['2'], driver, rfl, .inr rfl, hisDriver⟩
  · rintro ⟨_, rfl, two, driver, rfl, htwo, hisDriver⟩
    refine ⟨two ++ (driver ++ ("://".toList ++ r)), by simp, _,
      (afterDriver?_eq_some_iff rfl).mpr ⟨driver, ?_, hisDriver⟩, rfl⟩
    rcases htwo with rfl | rfl
    · -- neither a driver nor the colon behind the scheme begins with that digit
      rcases hisDriver with rfl | ⟨w, rfl, _⟩ <;> rfl
    · rw [after?_eq_some_iff.mpr rfl, Option.getD_some]

private theorem take_front (front r : List Char) :
    (front ++ r).take ((front ++ r).length - r.length) = front := by
  simp

/-- What is masked is a password with an at sign behind it and the beginning of a connection URL in
front of it. -/
private theorem credentials?_eq_some_iff :
    credentials? s = some (front, password) ↔
      ∃ rest, s = front ++ (password ++ '@' :: rest) ∧ IsFront front ∧ IsSecret password := by
  simp only [credentials?, Option.bind_eq_bind, Option.bind_eq_some_iff, Prod.exists]
  constructor
  · rintro ⟨user, _, ⟨_, hscheme, huser⟩, r, hcolon, secret, _, hsecret, rest, hat, hfound⟩
    obtain ⟨scheme, rfl, hisScheme⟩ := afterScheme?_eq_some_iff.mp hscheme
    obtain ⟨rfl, huserNe, huserChars, _⟩ := span?_eq_some_iff.mp huser
    obtain rfl := after?_eq_some_iff.mp hcolon
    obtain ⟨rfl, hne, hchars, _⟩ := span?_eq_some_iff.mp hsecret
    obtain rfl := after?_eq_some_iff.mp hat
    obtain ⟨hfront, rfl⟩ := Prod.mk.inj (Option.some.inj hfound)
    have hs : scheme ++ ("://".toList ++ (user ++ ([':'] ++ (secret ++ (['@'] ++ rest))))) =
        scheme ++ ("://".toList ++ (user ++ [':'])) ++ (secret ++ '@' :: rest) := by simp
    rw [hs]
    rw [hs, List.singleton_append, take_front] at hfront
    exact ⟨rest, by rw [hfront], ⟨scheme, user, hfront.symm, hisScheme, huserNe, huserChars⟩,
      hne, hchars⟩
  · rintro ⟨rest, rfl, ⟨scheme, user, rfl, hscheme, huserNe, huserChars⟩, hsecret⟩
    have huserEnd : ∀ d ∈ ([':'] ++ (password ++ '@' :: rest)).head?, isUserChar d = false := by
      rintro _ ⟨⟩
      decide
    have hsecretEnd : ∀ d ∈ ('@' :: rest).head?, isPasswordChar d = false := by
      rintro _ ⟨⟩
      decide
    exact ⟨user, [':'] ++ (password ++ '@' :: rest), ⟨_, afterScheme?_eq_some_iff.mpr
      ⟨scheme, by simp, hscheme⟩, span?_eq_some_iff.mpr ⟨rfl, huserNe, huserChars, huserEnd⟩⟩, _,
      after?_eq_some_iff.mpr rfl, password, '@' :: rest, span?_eq_some_iff.mpr
      ⟨rfl, hsecret.nonempty, hsecret.chars, hsecretEnd⟩, rest, after?_eq_some_iff.mpr rfl,
      congrArg (fun f => some (f, password)) (take_front _ _)⟩

/-! ## Characters -/

/-- White space after ASCII, as ranges. -/
def blankRanges : List (Nat × Nat) :=
  [(0x85, 0x85), (0xa0, 0xa0), (0x1680, 0x1680), (0x2000, 0x200a), (0x2028, 0x2029),
   (0x202f, 0x202f), (0x205f, 0x205f), (0x3000, 0x3000)]

private theorem exists_blankRange {c : Char} (h : isBlank c = true) (hc : ¬ c.toNat < 128) :
    ∃ q ∈ blankRanges, q.1 ≤ c.toNat ∧ c.toNat ≤ q.2 := by
  simp only [isBlank, Bool.or_eq_true, Bool.and_eq_true, decide_eq_true_eq, beq_iff_eq] at h
  simp only [blankRanges, List.exists_mem_cons_iff, List.not_mem_nil, false_and, exists_false,
    or_false]
  omega

private theorem apart_of_mem_blankRanges : ∀ q ∈ blankRanges, ∀ r ∈ Word.alphanumericRanges,
    q.2 < r.1 ∨ r.2 < q.1 := by
  decide +kernel

private theorem isWord_of_isBlank {c : Char} (h : isBlank c = true) : isWord c = false := by
  by_cases hc : c.toNat < 128
  · have hascii : ∀ n < 128, isBlank (Char.ofNat n) = true → isWord (Char.ofNat n) = false := by
      decide
    have hword := hascii c.toNat hc
    rw [Char.ofNat_toNat] at hword
    exact hword h
  · obtain ⟨q, hq, hlow, hhigh⟩ := exists_blankRange h hc
    have hunderscore : c ≠ '_' := by
      rintro rfl
      exact hc (by decide)
    rw [isWord, beq_false_of_ne hunderscore, Word.isAlphanumeric, if_neg hc, Bool.false_or,
      List.any_eq_false]
    intro r hr hwithin
    have hapart := apart_of_mem_blankRanges q hq r hr
    simp only [Bool.and_eq_true, decide_eq_true_eq] at hwithin
    omega

theorem isPasswordChar_iff {c : Char} : isPasswordChar c = true ↔ c ≠ '@' ∧ isBlank c = false := by
  simp [isPasswordChar]

private theorem isPasswordChar_of_isUserChar {c : Char} (h : isUserChar c = true) :
    isPasswordChar c = true := by
  simp only [isUserChar, Bool.not_eq_true', Bool.or_eq_false_iff, beq_eq_false_iff_ne] at h
  exact isPasswordChar_iff.mpr ⟨h.1.2, h.2⟩

private theorem isPasswordChar_of_isWord {c : Char} (h : isWord c = true) :
    isPasswordChar c = true := by
  refine isPasswordChar_iff.mpr ⟨?_, Bool.eq_false_iff.mpr fun hblank => ?_⟩
  · rintro rfl
    exact absurd h (by decide)
  · rw [isWord_of_isBlank hblank] at h
    cases h

theorem IsScheme.chars (h : IsScheme s) : ∀ c ∈ s, isWord c = true ∨ c = '+' := by
  obtain ⟨two, driver, rfl, htwo, hdriver⟩ := h
  have hname : ∀ c ∈ "mysql".toList, isWord c = true := List.all_eq_true.mp rfl
  have hdigit : ∀ c ∈ two, isWord c = true := by
    rcases htwo with rfl | rfl <;> exact List.all_eq_true.mp rfl
  have hbehind : ∀ c ∈ driver, isWord c = true ∨ c = '+' := by
    rcases hdriver with rfl | ⟨w, rfl, _, hw⟩
    · nofun
    · exact List.forall_mem_cons.mpr ⟨.inr rfl, fun c hc => .inl (hw c hc)⟩
  exact List.forall_mem_append.mpr ⟨fun c hc => .inl (hname c hc),
    List.forall_mem_append.mpr ⟨fun c hc => .inl (hdigit c hc), hbehind⟩⟩

theorem IsFront.chars (h : IsFront s) : ∀ c ∈ s, isPasswordChar c = true := by
  obtain ⟨scheme, user, rfl, hscheme, _, huser⟩ := h
  have hmarks : ∀ c ∈ "://".toList, isPasswordChar c = true := List.all_eq_true.mp rfl
  have hcolon : ∀ c ∈ [':'], isPasswordChar c = true := List.all_eq_true.mp rfl
  refine List.forall_mem_append.mpr ⟨fun c hc => ?_, List.forall_mem_append.mpr ⟨hmarks,
    List.forall_mem_append.mpr ⟨fun c hc => isPasswordChar_of_isUserChar (huser c hc), hcolon⟩⟩⟩
  rcases hscheme.chars c hc with hword | rfl
  · exact isPasswordChar_of_isWord hword
  · decide

theorem IsSecret.atSign_not_mem (h : IsSecret s) : '@' ∉ s :=
  fun hmem => absurd (h.chars '@' hmem) (by decide)

theorem isSecret_mask : IsSecret mask := ⟨by decide, List.all_eq_true.mp rfl⟩

private theorem IsFront.exists_cons (h : IsFront s) : ∃ r, s = 'm' :: r := by
  obtain ⟨_, _, rfl, ⟨_, _, rfl, _⟩, _⟩ := h
  exact ⟨_, rfl⟩

/-! ## Masked texts -/

/-- Two texts that meet where nothing that is masked goes on. -/
def Apart (s t : List Char) : Prop :=
  (∀ d ∈ s.getLast?, isPasswordChar d = false) ∨ ∀ d ∈ t.head?, isBlank d = true

private theorem credentials?_append (hs : s ≠ []) (hapart : Apart s t) :
    credentials? (s ++ t) = credentials? s := by
  refine Option.ext fun found => ?_
  obtain ⟨front, password⟩ := found
  simp only [credentials?_eq_some_iff]
  constructor
  · rintro ⟨rest, hmatch, hfront, hsecret⟩
    have hchars : ∀ c ∈ front ++ password, isPasswordChar c = true :=
      List.forall_mem_append.mpr ⟨hfront.chars, hsecret.chars⟩
    have hover : s ++ t = (front ++ password ++ ['@']) ++ rest := by simp [hmatch]
    rcases List.append_eq_append_iff.mp hover with ⟨a, hlong, rfl⟩ | ⟨more, rfl, _⟩
    · rcases List.eq_nil_or_concat' a with rfl | ⟨a, d, rfl⟩
      · exact ⟨[], by simpa using hlong.symm, hfront, hsecret⟩
      · -- the end of `s` and the start of `t` would stand in front of the at sign
        rw [← List.append_assoc] at hlong
        obtain ⟨hinner, hend⟩ := List.append_inj' hlong rfl
        obtain rfl := List.singleton_inj.mp hend
        exfalso
        rcases hapart with hends | hstarts
        · have hlast := hends _ (List.getLast?_eq_some_getLast hs)
          rw [hchars _ (hinner ▸ List.mem_append_left _ (List.getLast_mem hs))] at hlast
          cases hlast
        · cases a with
          | nil => exact absurd (hstarts _ rfl) (by decide)
          | cons c a =>
            have hblank : isBlank c = true := hstarts c rfl
            have hc := hchars c (by simp [hinner])
            rw [(isPasswordChar_iff.mp hc).2] at hblank
            cases hblank
    · exact ⟨more, by simp, hfront, hsecret⟩
  · rintro ⟨rest, rfl, hfront, hsecret⟩
    exact ⟨rest ++ t, by simp, hfront, hsecret⟩

private theorem Apart.of_cons {c : Char} (h : Apart (c :: s) t) : Apart s t := by
  refine h.imp_left fun hends d hd => hends d ?_
  rw [List.getLast?_cons, Option.mem_def.mp hd]
  rfl

theorem maskFrom_append (hapart : Apart s t) {skipped : Nat} (hskipped : skipped ≤ s.length) :
    maskFrom skipped (s ++ t) = maskFrom skipped s ++ maskFrom 0 t := by
  induction s generalizing skipped with
  | nil =>
    obtain rfl := Nat.le_zero.mp hskipped
    rfl
  | cons c s ih =>
    cases skipped with
    | succ skipped => exact ih hapart.of_cons (Nat.le_of_succ_le_succ hskipped)
    | zero =>
      have hsame := credentials?_append (List.cons_ne_nil c s) hapart
      rw [List.cons_append] at hsame ⊢
      rw [maskFrom, maskFrom, hsame]
      cases hfound : credentials? (c :: s) with
      | none => exact congrArg (c :: ·) (ih hapart.of_cons (Nat.zero_le _))
      | some found =>
        obtain ⟨front, password⟩ := found
        obtain ⟨rest, hs, _, _⟩ := credentials?_eq_some_iff.mp hfound
        have hlength := congrArg List.length hs
        simp only [List.length_cons, List.length_append] at hlength
        have hinside : front.length + password.length - 1 ≤ s.length := by omega
        simp only [ih hapart.of_cons hinside, List.append_assoc]

private theorem maskFrom_length (s t : List Char) : maskFrom s.length (s ++ t) = maskFrom 0 t := by
  induction s with
  | nil => rfl
  | cons c s ih => exact ih

theorem maskFrom_front (hfront : IsFront front) (hsecret : IsSecret password) (rest : List Char) :
    maskFrom 0 (front ++ (password ++ '@' :: rest)) =
      front ++ (mask ++ maskFrom 0 ('@' :: rest)) := by
  have hfound := credentials?_eq_some_iff.mpr ⟨rest, rfl, hfront, hsecret⟩
  obtain ⟨r, rfl⟩ := hfront.exists_cons
  have hskipped := maskFrom_length (r ++ password) ('@' :: rest)
  rw [List.cons_append] at hfound ⊢
  rw [maskFrom, hfound]
  have hlength : ('m' :: r).length + password.length - 1 = (r ++ password).length := by
    simp
  simp only [hlength, ← List.append_assoc r, hskipped]
  exact List.append_assoc _ _ _

theorem maskFrom_append_of_not_mem (h : 'm' ∉ s) (t : List Char) :
    maskFrom 0 (s ++ t) = s ++ maskFrom 0 t := by
  induction s with
  | nil => rfl
  | cons c s ih =>
    obtain ⟨hc, hs⟩ : 'm' ≠ c ∧ 'm' ∉ s := by simpa using h
    cases hfound : credentials? (c :: (s ++ t)) with
    | some found =>
      obtain ⟨rest, htext, hfront, _⟩ := credentials?_eq_some_iff.mp hfound
      obtain ⟨r, hr⟩ := hfront.exists_cons
      rw [hr, List.cons_append] at htext
      exact absurd (List.cons.inj htext).1.symm hc
    | none =>
      rw [List.cons_append, maskFrom, hfound, List.cons_append]
      exact congrArg (c :: ·) (ih hs)

/-- A text with a password in it that can be masked: what is in front of the connection URL, the
beginning of that, the password and what is behind the at sign. -/
structure Announces (s before front password rest : List Char) : Prop where
  text : s = before ++ (front ++ (password ++ '@' :: rest))
  front : IsFront front
  secret : IsSecret password

theorem maskFrom_cases (s : List Char) :
    (maskFrom 0 s = s ∧ ∀ before front password rest, ¬ Announces s before front password rest) ∨
    ∃ before front password rest, Announces s before front password rest ∧
      maskFrom 0 s = before ++ (front ++ (mask ++ maskFrom 0 ('@' :: rest))) := by
  induction s with
  | nil =>
    refine .inl ⟨rfl, fun before front password rest h => ?_⟩
    have htext := h.text
    simp at htext
  | cons c s ih =>
    cases hfound : credentials? (c :: s) with
    | some found =>
      obtain ⟨front, password⟩ := found
      obtain ⟨rest, htext, hfront, hsecret⟩ := credentials?_eq_some_iff.mp hfound
      refine .inr ⟨[], front, password, rest, ⟨htext, hfront, hsecret⟩, ?_⟩
      rw [htext, maskFrom_front hfront hsecret, List.nil_append]
    | none =>
      have hkept : maskFrom 0 (c :: s) = c :: maskFrom 0 s := by rw [maskFrom, hfound]
      rcases ih with ⟨hsame, hnone⟩ | ⟨before, front, password, rest, h, hmasked⟩
      · refine .inl ⟨by rw [hkept, hsame], fun before front password rest h => ?_⟩
        cases before with
        | nil =>
          rw [credentials?_eq_some_iff.mpr ⟨rest, h.text, h.front, h.secret⟩] at hfound
          cases hfound
        | cons d before =>
          obtain ⟨rfl, htext⟩ := List.cons.inj h.text
          exact hnone before front password rest ⟨htext, h.front, h.secret⟩
      · refine .inr ⟨c :: before, front, password, rest, ⟨?_, h.front, h.secret⟩, ?_⟩
        · rw [h.text, List.cons_append]
        · rw [hkept, hmasked, List.cons_append]

/-! ## Texts without a slash -/

private theorem IsFront.slash_mem (h : IsFront s) : '/' ∈ s := by
  obtain ⟨_, _, rfl, _⟩ := h
  simp

theorem maskFrom_of_slash_not_mem (h : '/' ∉ s) : maskFrom 0 s = s := by
  rcases maskFrom_cases s with ⟨hsame, _⟩ | ⟨before, front, password, rest, hs, _⟩
  · exact hsame
  · rw [hs.text] at h
    exact absurd (by simp [hs.front.slash_mem]) h

theorem eq_of_slash_not_mem_maskFrom (h : '/' ∉ maskFrom 0 s) : maskFrom 0 s = s := by
  rcases maskFrom_cases s with ⟨hsame, _⟩ | ⟨before, front, password, rest, hs, hmasked⟩
  · exact hsame
  · rw [hmasked] at h
    exact absurd (by simp [hs.front.slash_mem]) h

end QueryGateway.Proofs.Log.Redaction
