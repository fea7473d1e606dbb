import Mathlib.Order.Bounds.Basic
import QueryGateway.Retry

/-!
Repeated attempts written out in a line: one attempt after another, with an announcement and a wait
between two of them, and no decision anywhere. Only where the line ends depends on the outcomes.
Repeating goes along this line up to the first attempt that may be the last.
-/

set_option autoImplicit false
set_option relaxedAutoImplicit false

namespace QueryGateway.Proofs.Retry.Line

private theorem attempts_eq {δ : Type} (p : RetryPolicy δ) :
    (p.attempts : Int) = max 1 p.maxAttempts := by
  rw [RetryPolicy.attempts]
  omega

private theorem one_le_attempts {δ : Type} (p : RetryPolicy δ) : 1 ≤ p.attempts := by
  have hattempts := attempts_eq p
  omega

/-! ## Numbers that run out -/

section Loop

variable {m : Type → Type} [Monad m] {ε δ α : Type}

/-- The attempts of some numbers, in order, until one is not to be repeated. There is no outcome if
the numbers run out first. -/
def loop (r : Retry m ε δ) (attempt : Nat → m (Except ε α)) : List Nat → m (Option (Except ε α))
  | [] => pure none
  | number :: rest => do
    match ← attempt number with
    | .ok a => return some (.ok a)
    | .error e =>
      if r.policy.attempts ≤ number ∨ r.admits e = false then return some (.error e)
      else
        match r.delayAfter number with
        | .error f => return some (.error f)
        | .ok delay =>
          r.announce number delay e
          r.wait delay
          loop r attempt rest

variable [LawfulMonad m] {r : Retry m ε δ} {attempt : Nat → m (Except ε α)}

private theorem loop_range' (number remaining : Nat) (h : number + remaining = r.policy.attempts) :
    loop r attempt (List.range' number (remaining + 1)) =
      some <$> r.runFrom attempt number remaining := by
  induction remaining generalizing number with
  | zero =>
    have hlast : r.policy.attempts ≤ number := by omega
    rw [List.range'_succ, loop, Retry.runFrom, ← bind_pure_comp]
    refine bind_congr fun x => ?_
    cases x with
    | ok a => rfl
    | error e => simp [hlast]
  | succ remaining ih =>
    have hmore : ¬ r.policy.attempts ≤ number := by omega
    rw [List.range'_succ, loop, Retry.runFrom, map_bind]
    refine bind_congr fun x => ?_
    cases x with
    | ok a => simp
    | error e =>
      cases hadmits : r.admits e with
      | false => simp [hadmits]
      | true =>
        cases hdelay : r.delayAfter number with
        | error f => simp [hadmits, hmore]
        | ok delay => simp [hadmits, hmore, ih (number + 1) (by omega)]

private theorem loop_eq_run :
    loop r attempt (List.range' 1 r.policy.attempts) = some <$> r.run attempt := by
  have hone := one_le_attempts r.policy
  have hall : loop r attempt (List.range' 1 (r.policy.attempts - 1 + 1)) =
      some <$> r.runFrom attempt 1 (r.policy.attempts - 1) := loop_range' _ _ (by omega)
  rwa [Nat.sub_add_cancel hone] at hall

end Loop

/-! ## The line -/

section Course

variable {σ ε δ α : Type}

/-- What comes between an attempt that failed and the next one. -/
def between (r : Retry (StateM σ) ε δ) (delay : Nat → δ) (number : Nat) :
    Except ε α → StateM σ Unit
  | .ok _ => pure ()
  | .error e => do
    r.announce number (delay number) e
    r.wait (delay number)

def line (r : Retry (StateM σ) ε δ) (delay : Nat → δ) (attempt : Nat → StateM σ (Except ε α)) :
    Nat → StateM σ Unit
  | 0 => pure ()
  | n + 1 => do
    line r delay attempt n
    between r delay (n + 1) (← attempt (n + 1))

def upTo (r : Retry (StateM σ) ε δ) (delay : Nat → δ) (attempt : Nat → StateM σ (Except ε α))
    (number : Nat) : StateM σ (Except ε α) := do
  line r delay attempt (number - 1)
  attempt number

/-- Whether the attempt of a number, given its outcome, may be the last: it succeeded, it failed for
good, or no other is allowed. -/
def Final (r : Retry (StateM σ) ε δ) (number : Nat) : Except ε α → Prop
  | .ok _ => True
  | .error e => r.admits e = false ∨ (number : Int) = max 1 r.policy.maxAttempts

variable {r : Retry (StateM σ) ε δ} {delay : Nat → δ} {attempt : Nat → StateM σ (Except ε α)}

private theorem runFrom_succ (s : σ) (number remaining : Nat) :
    r.runFrom attempt number (remaining + 1) s =
      (match (attempt number s).1 with
      | .ok a => (pure (.ok a) : StateM σ (Except ε α))
      | .error e =>
        if r.admits e then
          match r.delayAfter number with
          | .error f => pure (.error f)
          | .ok d => do
            r.announce number d e
            r.wait d
            r.runFrom attempt (number + 1) remaining
        else pure (.error e)) (attempt number s).2 :=
  rfl

private theorem runFrom_of_final {s t : σ} {x : Except ε α} {number remaining : Nat}
    (h : number + remaining = r.policy.attempts) (hx : attempt number s = (x, t))
    (hfinal : Final r number x) : r.runFrom attempt number remaining s = (x, t) := by
  cases remaining with
  | zero => exact hx
  | succ remaining =>
    rw [runFrom_succ, hx]
    cases x with
    | ok a => rfl
    | error e =>
      have hlast := attempts_eq r.policy
      rcases hfinal with hrefused | hnumber
      · simp only [hrefused, Bool.false_eq_true, if_false]
        rfl
      · omega

private theorem runFrom_of_not_final {s t : σ} {x : Except ε α} {number remaining : Nat}
    (hx : attempt number s = (x, t)) (hfinal : ¬ Final r number x)
    (hdelay : r.delayAfter number = .ok (delay number)) :
    r.runFrom attempt number (remaining + 1) s =
      r.runFrom attempt (number + 1) remaining (between r delay number x t).2 := by
  rw [runFrom_succ, hx]
  cases x with
  | ok a => exact absurd trivial hfinal
  | error e =>
    have hadmits : r.admits e = true := by
      rw [Final, not_or] at hfinal
      simpa using hfinal.1
    simp only [hadmits, hdelay, if_true]
    rfl

/-- None of the attempts up to a number may be the last. -/
def GoesPast (r : Retry (StateM σ) ε δ) (delay : Nat → δ) (attempt : Nat → StateM σ (Except ε α))
    (s : σ) (number : Nat) : Prop :=
  ∀ j, 1 ≤ j → j ≤ number → ¬ Final r j (upTo r delay attempt j s).1

/-- From a place in the line, repeating goes on to the first attempt that may be the last. Only the
waits in front of that attempt matter. -/
private theorem exists_runFrom (attempt : Nat → StateM σ (Except ε α)) {s : σ}
    (hdelay : ∀ j, 1 ≤ j → GoesPast r delay attempt s j → r.delayAfter j = .ok (delay j))
    (n remaining : Nat) (hpast : GoesPast r delay attempt s n)
    (h : n + 1 + remaining = r.policy.attempts) :
    ∃ k, IsLeast {j | n < j ∧ Final r j (upTo r delay attempt j s).1} k ∧
      r.runFrom attempt (n + 1) remaining (line r delay attempt n s).2 =
        upTo r delay attempt k s := by
  induction remaining generalizing n with
  | zero =>
    refine ⟨n + 1, ⟨⟨Nat.lt_succ_self n, ?_⟩, fun j hj => hj.1⟩, rfl⟩
    have hlast := attempts_eq r.policy
    generalize (upTo r delay attempt (n + 1) s).1 = x
    cases x with
    | ok a => trivial
    | error e => exact .inr (by omega)
  | succ remaining ih =>
    have hx : attempt (n + 1) (line r delay attempt n s).2 = upTo r delay attempt (n + 1) s := rfl
    by_cases hfinal : Final r (n + 1) (upTo r delay attempt (n + 1) s).1
    · exact ⟨n + 1, ⟨⟨Nat.lt_succ_self n, hfinal⟩, fun j hj => hj.1⟩,
        runFrom_of_final h hx hfinal⟩
    · have hfurther : GoesPast r delay attempt s (n + 1) := by
        intro j hj hle
        obtain hle | rfl := Nat.le_succ_iff.mp hle
        · exact hpast j hj hle
        · exact hfinal
      obtain ⟨k, ⟨⟨hk, hlast⟩, hleast⟩, hrun⟩ := ih (n + 1) hfurther (by omega)
      refine ⟨k, ⟨⟨by omega, hlast⟩, ?_⟩, ?_⟩
      · rintro j ⟨hj, hover⟩
        have hne : j ≠ n + 1 := by
          rintro rfl
          exact hfinal hover
        exact hleast ⟨by omega, hover⟩
      · rw [runFrom_of_not_final hx hfinal (hdelay (n + 1) (by omega) hfurther)]
        exact hrun

private theorem exists_run (attempt : Nat → StateM σ (Except ε α)) {s : σ}
    (hdelay : ∀ j, 1 ≤ j → GoesPast r delay attempt s j → r.delayAfter j = .ok (delay j)) :
    ∃ k, IsLeast {j | 1 ≤ j ∧ Final r j (upTo r delay attempt j s).1} k ∧
      r.run attempt s = upTo r delay attempt k s := by
  have hone := one_le_attempts r.policy
  have hpast : GoesPast r delay attempt s 0 := by
    intro j hj hle
    omega
  exact exists_runFrom attempt hdelay 0 (r.policy.attempts - 1) hpast (by omega)

end Course

/-! ## What is done along the line -/

section Diary

variable {σ ε δ α : Type}

/-- What is done along the line, with what it is given. -/
inductive Deed (ε δ : Type) where
  | attempted (number : Nat)
  | announced (number : Nat) (delay : δ) (error : ε)
  | waited (delay : δ)
  deriving DecidableEq

/-- Work that is put down in a diary, which is kept beside the world and is out of reach of it. -/
def noting (deed : Deed ε δ) (work : StateM σ α) : StateM (σ × List (Deed ε δ)) α :=
  fun s => ((work s.1).1, (work s.1).2, s.2 ++ [deed])

/-- Repeating of which every announcement and every wait is put down. -/
def noted (r : Retry (StateM σ) ε δ) : Retry (StateM (σ × List (Deed ε δ))) ε δ where
  policy := r.policy
  times := r.times
  admits := r.admits
  announce number delay e := noting (.announced number delay e) (r.announce number delay e)
  wait delay := noting (.waited delay) (r.wait delay)

def notedAttempt (δ : Type) (attempt : Nat → StateM σ (Except ε α)) (number : Nat) :
    StateM (σ × List (Deed ε δ)) (Except ε α) :=
  noting (.attempted number) (attempt number)

def deeds (delay : Nat → δ) (number : Nat) : Except ε α → List (Deed ε δ)
  | .ok _ => [.attempted number]
  | .error e => [.attempted number, .announced number (delay number) e, .waited (delay number)]

variable {r : Retry (StateM σ) ε δ} {delay : Nat → δ} {attempt : Nat → StateM σ (Except ε α)}

private theorem noted_between (number : Nat) (x : Except ε α) (s : σ) (done : List (Deed ε δ)) :
    (between (noted r) delay number x (s, done ++ [.attempted number])).2 =
      ((between r delay number x s).2, done ++ deeds delay number x) := by
  cases x with
  | ok a => rfl
  | error e =>
    have htwo : (between (noted r) delay number (.error e : Except ε α)
        (s, done ++ [.attempted number])).2 =
          ((between r delay number (.error e : Except ε α) s).2,
            done ++ [.attempted number] ++ [.announced number (delay number) e] ++
              [.waited (delay number)]) := rfl
    rw [htwo]
    simp only [deeds, List.append_assoc, List.cons_append, List.nil_append]

private theorem noted_line (n : Nat) (s : σ) :
    (line (noted r) delay (notedAttempt δ attempt) n (s, [])).2 =
      ((line r delay attempt n s).2,
        (List.range' 1 n).flatMap fun j => deeds delay j (upTo r delay attempt j s).1) := by
  induction n with
  | zero => rfl
  | succ n ih =>
    have hstep : (line (noted r) delay (notedAttempt δ attempt) (n + 1) (s, [])).2 =
        (between (noted r) delay (n + 1)
          (notedAttempt δ attempt (n + 1)
            (line (noted r) delay (notedAttempt δ attempt) n (s, [])).2).1
          (notedAttempt δ attempt (n + 1)
            (line (noted r) delay (notedAttempt δ attempt) n (s, [])).2).2).2 := rfl
    rw [hstep, ih, List.range'_1_concat, List.flatMap_append, List.flatMap_singleton,
      Nat.add_comm 1]
    exact noted_between (n + 1) (upTo r delay attempt (n + 1) s).1
      (upTo r delay attempt (n + 1) s).2 _

private theorem noted_upTo (k : Nat) (s : σ) :
    upTo (noted r) delay (notedAttempt δ attempt) k (s, []) =
      ((upTo r delay attempt k s).1, (upTo r delay attempt k s).2,
        ((List.range' 1 (k - 1)).flatMap fun j => deeds delay j (upTo r delay attempt j s).1) ++
          [.attempted k]) := by
  have hstep : upTo (noted r) delay (notedAttempt δ attempt) k (s, []) =
      notedAttempt δ attempt k
        (line (noted r) delay (notedAttempt δ attempt) (k - 1) (s, [])).2 := rfl
  rw [hstep, noted_line]
  rfl

/-- Repeating makes the attempts up to the first one that may be the last, each of them once, and
announces and waits between two of them and nowhere else, given that the waits in front of that
attempt can be worked out. What the attempt comes to is what repeating comes to, and the numbers do
not run out before. -/
theorem run_goes_along_line (r : Retry (StateM σ) ε δ) (delay : Nat → δ)
    (attempt : Nat → StateM σ (Except ε α)) (s : σ)
    (hdelay : ∀ j, 1 ≤ j → GoesPast r delay attempt s j →
      r.times r.policy.baseDelay j = .ok (delay j)) :
    ∃ k, IsLeast {j | 1 ≤ j ∧ Final r j (upTo r delay attempt j s).1} k ∧
      r.run attempt s = upTo r delay attempt k s ∧
      (noted r).run (notedAttempt δ attempt) (s, []) =
        ((upTo r delay attempt k s).1, (upTo r delay attempt k s).2,
          ((List.range' 1 (k - 1)).flatMap fun j => deeds delay j (upTo r delay attempt j s).1) ++
            [.attempted k]) ∧
      loop r attempt (List.range' 1 r.policy.attempts) s =
        (some (upTo r delay attempt k s).1, (upTo r delay attempt k s).2) := by
  obtain ⟨k, hleast, hrun⟩ := exists_run attempt hdelay
  -- The outcomes are the same with a diary, and so is the number that is the least.
  have hsame : ∀ j, Final (noted r) j (upTo (noted r) delay (notedAttempt δ attempt) j (s, [])).1 ↔
      Final r j (upTo r delay attempt j s).1 := by
    intro j
    rw [noted_upTo]
    rfl
  have hwaits : ∀ j, 1 ≤ j → GoesPast (noted r) delay (notedAttempt δ attempt) (s, []) j →
      (noted r).delayAfter j = .ok (delay j) := fun j hj hpast =>
    hdelay j hj fun i hi hle hfinal => hpast i hi hle ((hsame i).mpr hfinal)
  obtain ⟨l, hnoted, hdiary⟩ := exists_run (notedAttempt δ attempt) hwaits
  simp only [hsame] at hnoted
  obtain rfl : l = k := hnoted.unique hleast
  refine ⟨l, hleast, hrun, ?_, ?_⟩
  · rw [hdiary, noted_upTo]
  · rw [loop_eq_run, ← hrun]
    rfl

/-- At most three attempts, five apart. -/
def thrice : Retry (StateM Nat) String Nat where
  policy := ⟨3, 5⟩
  times unit n := .ok (unit * n)
  admits _ := true
  announce _ _ _ := modify (· + 1)
  wait _ := pure ()

def onceAnnounced (_ : Nat) : StateM Nat (Except String Nat) := do
  let n ← get
  return if n = 0 then .error "too early" else .ok n

theorem thrice_goes_along_line :
    (∀ j, 1 ≤ j → GoesPast thrice (5 * ·) onceAnnounced 0 j →
      thrice.times thrice.policy.baseDelay j = .ok (5 * j)) ∧
      (noted thrice).run (notedAttempt Nat onceAnnounced) (0, []) =
        (.ok 1, 1, [.attempted 1, .announced 1 5 "too early", .waited 5, .attempted 2]) ∧
      ∃ k, IsLeast {j | 1 ≤ j ∧ Final thrice j (upTo thrice (5 * ·) onceAnnounced j 0).1} k ∧
        thrice.run onceAnnounced 0 = upTo thrice (5 * ·) onceAnnounced k 0 ∧
        (noted thrice).run (notedAttempt Nat onceAnnounced) (0, []) =
          ((upTo thrice (5 * ·) onceAnnounced k 0).1, (upTo thrice (5 * ·) onceAnnounced k 0).2,
            ((List.range' 1 (k - 1)).flatMap fun j =>
              deeds (5 * ·) j (upTo thrice (5 * ·) onceAnnounced j 0).1) ++ [.attempted k]) ∧
        loop thrice onceAnnounced (List.range' 1 thrice.policy.attempts) 0 =
          (some (upTo thrice (5 * ·) onceAnnounced k 0).1,
            (upTo thrice (5 * ·) onceAnnounced k 0).2) :=
  have hdelay : ∀ j, 1 ≤ j → GoesPast thrice (5 * ·) onceAnnounced 0 j →
      thrice.times thrice.policy.baseDelay j = .ok (5 * j) := fun _ _ _ => rfl
  ⟨hdelay, rfl, run_goes_along_line thrice (5 * ·) onceAnnounced 0 hdelay⟩

end Diary

end QueryGateway.Proofs.Retry.Line
