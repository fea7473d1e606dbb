import Mathlib.Order.Bounds.Basic
import QueryGateway.Proofs.Database.Events
import QueryGateway.Retry

/-!
Attempts in a row, with the events of each and the waits between them. Every attempt is carried out
where those before it have led, and only its own number is known to it.
-/

set_option autoImplicit false
set_option relaxedAutoImplicit false

namespace QueryGateway.Proofs.Retry.Tries

open QueryGateway.Database
open QueryGateway.Number (Binary64)
open QueryGateway.Proofs.Database.Events

variable {ε α β : Type}

/-- An attempt: its events and what it came to. -/
structure Try (β : Type) where
  events : List Event
  outcome : β

def pauseAfter (unit : Binary64) (number : Nat) : Event := .sure (.sleep (unit.times number))

def inRow (unit : Binary64) : Nat → List (Try β) → List Event
  | _, [] => []
  | _, [t] => t.events
  | number, t :: u :: rest =>
    t.events ++ pauseAfter unit number :: inRow unit (number + 1) (u :: rest)

/-- Attempts from a number on with some more remaining after it, in sessions that have come to some
prospect. Each obeys a rule, and another one follows those that may be tried again. -/
inductive Row (rule : Prospect → List Event → β → Prop) (again : β → Bool) (unit : Binary64) :
    Nat → Nat → Prospect → List (Try β) → Prop
  | last {number : Nat} {p : Prospect} {t : Try β} : rule p t.events t.outcome →
      Row rule again unit number 0 p [t]
  | done {number remaining : Nat} {p : Prospect} {t : Try β} : rule p t.events t.outcome →
      again t.outcome = false → Row rule again unit number (remaining + 1) p [t]
  | next {number remaining : Nat} {p : Prospect} {t u : Try β} {rest : List (Try β)} :
      rule p t.events t.outcome → again t.outcome = true →
      Row rule again unit (number + 1) remaining
        (p.through (t.events ++ [pauseAfter unit number])) (u :: rest) →
      Row rule again unit number (remaining + 1) p (t :: u :: rest)

/-- Whether attempts are over with the one of a number: it exists, and it may not be tried again or
is the last that is allowed. -/
def Ends (again : β → Bool) (most : Nat) (tries : List (Try β)) (k : Nat) : Prop :=
  1 ≤ k ∧ ∃ t, tries[k - 1]? = some t ∧ (again t.outcome = false ∨ k = most)

theorem Row.isLeast {rule : Prospect → List Event → β → Prop} {again : β → Bool} {unit : Binary64}
    {number remaining : Nat} {p : Prospect} {tries : List (Try β)}
    (h : Row rule again unit number remaining p tries) :
    IsLeast {k | Ends again (remaining + 1) tries k} tries.length := by
  induction h with
  | @last number p t hrule =>
    refine ⟨⟨Nat.le_refl 1, t, rfl, .inr rfl⟩, ?_⟩
    intro k hk
    exact hk.1
  | @done number remaining p t hrule hstop =>
    refine ⟨⟨Nat.le_refl 1, t, rfl, .inl hstop⟩, ?_⟩
    intro k hk
    exact hk.1
  | @next number remaining p t u rest hrule hagain hrow ih =>
    obtain ⟨⟨hone, v, hv, hends⟩, hleast⟩ := ih
    refine ⟨⟨by simp, v, ?_, ?_⟩, ?_⟩
    · simpa using hv
    · exact hends.imp_right fun hlength => by rw [List.length_cons, hlength]
    · rintro k ⟨hk, w, hw, hover⟩
      obtain ⟨j, rfl⟩ : ∃ j, k = j + 1 := ⟨k - 1, by omega⟩
      cases j with
      | zero =>
        cases hw
        rcases hover with hstop | hlast
        · rw [hagain] at hstop
          cases hstop
        · omega
      | succ j =>
        have hj := hleast (a := j + 1) ⟨by omega, w, by simpa using hw,
          hover.imp_right fun hlast => by omega⟩
        rw [List.length_cons]
        omega

theorem Row.imp {rule rule' : Prospect → List Event → β → Prop} {again : β → Bool}
    {unit : Binary64} {number remaining : Nat} {p : Prospect} {tries : List (Try β)}
    (himp : ∀ {q events y}, rule q events y → rule' q events y)
    (h : Row rule again unit number remaining p tries) :
    Row rule' again unit number remaining p tries := by
  induction h with
  | last hrule => exact .last (himp hrule)
  | done hrule hstop => exact .done (himp hrule) hstop
  | next hrule hagain _ ih => exact .next (himp hrule) hagain ih

/-- An attempt that may be tried again goes ahead of a row, which has at least its last attempt. -/
private theorem Row.ahead {rule : Prospect → List Event → β → Prop} {again : β → Bool}
    {unit : Binary64} {number remaining : Nat} {p : Prospect} {front : List (Try β)} {t u : Try β}
    (hrule : rule p u.events u.outcome) (hagain : again u.outcome = true)
    (h : Row rule again unit (number + 1) remaining
      (p.through (u.events ++ [pauseAfter unit number])) (front ++ [t])) :
    Row rule again unit number (remaining + 1) p (u :: front ++ [t]) := by
  cases front with
  | nil => exact .next hrule hagain h
  | cons v front => exact .next hrule hagain h

private theorem inRow_ahead (unit : Binary64) (number : Nat) (front : List (Try β)) (t u : Try β) :
    inRow unit number (u :: (front ++ [t])) =
      u.events ++ pauseAfter unit number :: inRow unit (number + 1) (front ++ [t]) := by
  cases front with
  | nil => rfl
  | cons v front => rfl

theorem Row.again_of_front {rule : Prospect → List Event → β → Prop} {again : β → Bool}
    {unit : Binary64} {number remaining : Nat} {p : Prospect} {front : List (Try β)} {t : Try β}
    (h : Row rule again unit number remaining p (front ++ [t])) :
    ∀ u ∈ front, again u.outcome = true := by
  induction front generalizing number remaining p with
  | nil => exact List.forall_mem_nil _
  | cons u front ih =>
    -- Behind the first attempt there is at least the last one.
    obtain ⟨v, rest, hrest⟩ := List.exists_cons_of_ne_nil (List.append_ne_nil_of_right_ne_nil front
      (List.cons_ne_nil t []))
    rw [List.cons_append, hrest] at h
    cases h with
    | next _ hagain hbehind =>
      rw [← hrest] at hbehind
      exact List.forall_mem_cons.mpr ⟨hagain, ih hbehind⟩

theorem Row.rule_of_mem {rule : Prospect → List Event → β → Prop} {again : β → Bool}
    {unit : Binary64} {number remaining : Nat} {p : Prospect} {tries : List (Try β)}
    (h : Row rule again unit number remaining p tries) :
    ∀ t ∈ tries, ∃ before, rule (p.through before) t.events t.outcome := by
  induction h with
  | last hrule => exact List.forall_mem_singleton.mpr ⟨[], hrule⟩
  | done hrule _ => exact List.forall_mem_singleton.mpr ⟨[], hrule⟩
  | next hrule _ _ ih =>
    refine List.forall_mem_cons.mpr ⟨⟨[], hrule⟩, fun t ht => ?_⟩
    obtain ⟨before, hbefore⟩ := ih t ht
    rw [← Prospect.through_append] at hbefore
    exact ⟨_, hbefore⟩

/-- The first attempt in a row is made in the prospect that the row starts in. It is the only one
just where no other is allowed or it may not be tried again. -/
theorem Row.exists_first {rule : Prospect → List Event → β → Prop} {again : β → Bool}
    {unit : Binary64} {number remaining : Nat} {p : Prospect} {tries : List (Try β)}
    (h : Row rule again unit number remaining p tries) :
    ∃ t rest, tries = t :: rest ∧ rule p t.events t.outcome ∧
      (rest = [] ↔ remaining = 0 ∨ again t.outcome = false) := by
  cases h with
  | last hrule => exact ⟨_, [], rfl, hrule, by simp⟩
  | done hrule hstop => exact ⟨_, [], rfl, hrule, by simp [hstop]⟩
  | next hrule hagain _ => exact ⟨_, _, rfl, hrule, by simp [hagain]⟩

theorem closed_inRow {rule : List Event → Prop} (hclosed : Closed rule)
    (hpause : ∀ delay, rule [.sure (.sleep delay)]) {unit : Binary64} {tries : List (Try β)}
    (h : ∀ t ∈ tries, rule t.events) (number : Nat) : rule (inRow unit number tries) := by
  induction tries generalizing number with
  | nil => exact hclosed.nil
  | cons t tries ih =>
    obtain ⟨ht, htries⟩ := List.forall_mem_cons.mp h
    cases tries with
    | nil => exact ht
    | cons u rest =>
      have hrest := hclosed.append (hpause (unit.times number)) (ih htries (number + 1))
      exact hclosed.append ht hrest

section Loop

variable {r : Retry Run ε Binary64} {attempt : Nat → Run (Except ε α)}

private theorem gives_runFrom_done {number remaining : Nat} {p : Prospect} {events : List Event}
    {x : Except ε α} (hx : Gives (attempt number) p events x)
    (hrefused : ∀ e, x = .error e → r.admits e = false) :
    Gives (r.runFrom attempt number (remaining + 1)) p events x := by
  rw [← List.append_nil events, Retry.runFrom]
  refine Gives.bind hx ?_
  cases x with
  | ok a => exact gives_pure _ _
  | error e =>
    simp only [hrefused e rfl, Bool.false_eq_true, if_false]
    exact gives_pure _ _

private theorem gives_runFrom_next {number remaining : Nat} {p : Prospect}
    {events rest : List Event}
    {e : ε} {x : Except ε α} (hx : Gives (attempt number) p events (.error e))
    (hadmits : r.admits e = true) (htimes : ∀ unit n, r.times unit n = .ok (unit.times n))
    (hannounce : ∀ number delay e p, Gives (r.announce number delay e) p [] ())
    (hwait : r.wait = wait)
    (hrest : Gives (r.runFrom attempt (number + 1) remaining)
      (p.through (events ++ [pauseAfter r.policy.baseDelay number])) rest x) :
    Gives (r.runFrom attempt number (remaining + 1)) p
      (events ++ pauseAfter r.policy.baseDelay number :: rest) x := by
  rw [Retry.runFrom]
  refine Gives.bind hx ?_
  have hdelay : r.delayAfter number = .ok (r.policy.baseDelay.times number) := htimes _ _
  simp only [hadmits, hdelay, hwait, if_true]
  rw [p.through_append] at hrest
  have hwaiting : Gives (do
      wait (r.policy.baseDelay.times number)
      r.runFrom attempt (number + 1) remaining) (p.through events)
      ([pauseAfter r.policy.baseDelay number] ++ rest) x :=
    Gives.bind (gives_wait _ _) hrest
  exact Gives.bind (hannounce number _ e (p.through events)) hwaiting

/-- Attempts that follow the policy of retries go in a row. What the last of them came to, told with
its number, is what they come to. -/
theorem gives_runFrom (tag : Nat → β → Except ε α) (rule : Prospect → List Event → β → Prop)
    {again : β → Bool}
    (hattempt : ∀ number p, ∃ events y,
      Gives (attempt number) p events (tag number y) ∧ rule p events y)
    (hagain : ∀ number y, again y = true ↔ ∃ e, tag number y = .error e ∧ r.admits e = true)
    (htimes : ∀ unit n, r.times unit n = .ok (unit.times n))
    (hannounce : ∀ number delay e p, Gives (r.announce number delay e) p [] ())
    (hwait : r.wait = wait) (remaining number : Nat) (p : Prospect) :
    ∃ front t, Row rule again r.policy.baseDelay number remaining p (front ++ [t]) ∧
      Gives (r.runFrom attempt number remaining) p
        (inRow r.policy.baseDelay number (front ++ [t])) (tag (number + front.length) t.outcome) := by
  induction remaining generalizing number p with
  | zero =>
    obtain ⟨events, y, hgives, hrule⟩ := hattempt number p
    exact ⟨[], ⟨events, y⟩, .last hrule, hgives⟩
  | succ remaining ih =>
    obtain ⟨events, y, hgives, hrule⟩ := hattempt number p
    cases hy : again y with
    | false =>
      refine ⟨[], ⟨events, y⟩, .done hrule hy, gives_runFrom_done hgives ?_⟩
      intro e he
      have hnone : ¬ (r.admits e = true) := by
        intro hadmits
        have htrue := (hagain number y).mpr ⟨e, he, hadmits⟩
        rw [hy] at htrue
        cases htrue
      simpa using hnone
    | true =>
      obtain ⟨e, he, hadmits⟩ := (hagain number y).mp hy
      rw [he] at hgives
      obtain ⟨front, t, hrow, hrest⟩ :=
        ih (number + 1) (p.through (events ++ [pauseAfter r.policy.baseDelay number]))
      have hall := gives_runFrom_next hgives hadmits htimes hannounce hwait hrest
      refine ⟨⟨events, y⟩ :: front, t, .ahead hrule hy hrow, ?_⟩
      have hnumber : number + (⟨events, y⟩ :: front : List (Try β)).length =
          number + 1 + front.length := by
        rw [List.length_cons]
        omega
      rw [hnumber, List.cons_append, inRow_ahead]
      exact hall

end Loop

/-! ## Attempts that are told about -/

section Told

variable {r : Retry Attempt ε Binary64} {attempt : Nat → Run (Except ε α)}
  {telling : ε → Except Failure Unit}

/-- Whether another attempt follows one if all failures are tried again that can be told. -/
def goesOn (telling : ε → Except Failure Unit) : Except ε α → Bool
  | .ok _ => false
  | .error e => (telling e).isOk

/-- What attempts in a row come to with the last of them, behind which more are allowed or not. A
failure that would be tried again if it could be told gives way to what keeps it from that. -/
def concluded (telling : ε → Except Failure Unit) : Nat → Except ε α → Except Failure (Except ε α)
  | _ + 1, .error e => (telling e).map fun _ => .error e
  | _, y => .ok y

private theorem gives_runFrom_failed {number remaining : Nat} {p : Prospect}
    {events rest : List Event} {e : ε} {x : Except Failure (Except ε α)}
    (hx : Gives (attempt number) p events (.error e)) (hadmits : r.admits e = true)
    (htimes : ∀ unit n, r.times unit n = .ok (unit.times n))
    (hwait : r.wait = fun delay => ExceptT.lift (wait delay))
    (hrest : Gives (do
      r.announce number (r.policy.baseDelay.times number) e
      ExceptT.lift (wait (r.policy.baseDelay.times number))
      r.runFrom (fun n => ExceptT.lift (attempt n)) (number + 1) remaining :
      Attempt (Except ε α)).run (p.through events) rest x) :
    Gives (r.runFrom (fun n => ExceptT.lift (attempt n)) number (remaining + 1)).run p
      (events ++ rest) x := by
  rw [Retry.runFrom]
  refine Gives.andThen hx.lift ?_
  have hdelay : r.delayAfter number = .ok (r.policy.baseDelay.times number) := htimes _ _
  simpa only [hadmits, hdelay, hwait, if_true] using hrest

theorem gives_runFrom_telling {rule : Prospect → List Event → Except ε α → Prop}
    (hattempt : ∀ number p, ∃ events y, Gives (attempt number) p events y ∧ rule p events y)
    (hadmits : ∀ e, r.admits e = true) (htimes : ∀ unit n, r.times unit n = .ok (unit.times n))
    (hannounce : ∀ number delay e p, Gives (r.announce number delay e).run p [] (telling e))
    (hwait : r.wait = fun delay => ExceptT.lift (wait delay)) (remaining number : Nat)
    (p : Prospect) :
    ∃ front t, Row rule (goesOn telling) r.policy.baseDelay number remaining p (front ++ [t]) ∧
      Gives (r.runFrom (fun n => ExceptT.lift (attempt n)) number remaining).run p
        (inRow r.policy.baseDelay number (front ++ [t]))
        (concluded telling (remaining - front.length) t.outcome) := by
  induction remaining generalizing number p with
  | zero =>
    obtain ⟨events, y, hgives, hrule⟩ := hattempt number p
    exact ⟨[], ⟨events, y⟩, .last hrule, hgives.lift⟩
  | succ remaining ih =>
    obtain ⟨events, y, hgives, hrule⟩ := hattempt number p
    cases y with
    | ok a =>
      refine ⟨[], ⟨events, .ok a⟩, .done hrule rfl, ?_⟩
      change Gives _ p events (Except.ok (Except.ok a))
      rw [← List.append_nil events]
      exact hgives.lift.andThen (gives_pure (Except.ok (Except.ok a)) _)
    | error e =>
      have hannounced := hannounce number (r.policy.baseDelay.times number) e (p.through events)
      cases htelling : telling e with
      | error g =>
        rw [htelling] at hannounced
        refine ⟨[], ⟨events, .error e⟩, .done hrule (by rw [goesOn, htelling]; rfl), ?_⟩
        have hstopped : Gives (r.runFrom (fun n => ExceptT.lift (attempt n)) number
            (remaining + 1)).run p (events ++ []) (.error g) :=
          gives_runFrom_failed hgives (hadmits e) htimes hwait hannounced.stop
        have hlast : concluded telling (remaining + 1) (.error e : Except ε α) = .error g := by
          rw [concluded, htelling]
          rfl
        rw [List.append_nil] at hstopped
        rw [List.length_nil, Nat.sub_zero, hlast]
        exact hstopped
      | ok _ =>
        rw [htelling] at hannounced
        have hagain : goesOn telling (.error e : Except ε α) = true := by
          rw [goesOn, htelling]
          rfl
        obtain ⟨front, t, hrow, hrest⟩ :=
          ih (number + 1) (p.through (events ++ [pauseAfter r.policy.baseDelay number]))
        rw [p.through_append] at hrest
        have hwaited := (gives_wait (r.policy.baseDelay.times number) (p.through events)).lift
        have hall := gives_runFrom_failed hgives (hadmits e) htimes hwait
          (hannounced.andThen (hwaited.andThen hrest))
        refine ⟨⟨events, .error e⟩ :: front, t, .ahead hrule hagain hrow, ?_⟩
        rw [List.length_cons, Nat.add_sub_add_right, List.cons_append, inRow_ahead]
        exact hall

end Told

end QueryGateway.Proofs.Retry.Tries
