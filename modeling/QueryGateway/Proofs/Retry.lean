import QueryGateway.Proofs.Database.Calls
import QueryGateway.Retry

/-!
The calls of repeated attempts.
-/

set_option autoImplicit false
set_option relaxedAutoImplicit false

namespace QueryGateway.Proofs.Retry

open QueryGateway.Database
open QueryGateway.Proofs.Database.Calls

variable {ε δ α : Type}

/-- How attempts go from a number on with some more remaining: each obeys a rule, and so does each
pause, which follows a failure that is admitted and has a wait. -/
inductive Repeated (r : Retry Run ε δ) (rule : Nat → List Entry → Except ε α → Prop)
    (pause : Nat → δ → ε → List Entry → Prop) :
    Nat → Nat → List Entry → Except ε α → Prop
  | last {number : Nat} {made : List Entry} {x : Except ε α} :
      rule number made x → Repeated r rule pause number 0 made x
  | done {number remaining : Nat} {made : List Entry} {a : α} :
      rule number made (.ok a) → Repeated r rule pause number (remaining + 1) made (.ok a)
  | refused {number remaining : Nat} {made : List Entry} {e : ε} : r.admits e = false →
      rule number made (.error e) → Repeated r rule pause number (remaining + 1) made (.error e)
  | unmeasured {number remaining : Nat} {made : List Entry} {e f : ε} : r.admits e = true →
      r.delayAfter number = .error f → rule number made (.error e) →
      Repeated r rule pause number (remaining + 1) made (.error f)
  | again {number remaining : Nat} {made between rest : List Entry} {e : ε} {delay : δ}
      {x : Except ε α} : r.admits e = true → r.delayAfter number = .ok delay →
      rule number made (.error e) → pause number delay e between →
      Repeated r rule pause (number + 1) remaining rest x →
      Repeated r rule pause number (remaining + 1) (made ++ (between ++ rest)) x

variable {r : Retry Run ε δ} {rule : Nat → List Entry → Except ε α → Prop}
  {pause : Nat → δ → ε → List Entry → Prop}

theorem makes_runFrom {attempt : Nat → Run (Except ε α)}
    (hattempt : ∀ number, Makes (attempt number) (rule number))
    (hpause : ∀ number delay e, Makes (do
      r.announce number delay e
      r.wait delay) fun made _ => pause number delay e made) (remaining number : Nat) :
    Makes (r.runFrom attempt number remaining) (Repeated r rule pause number remaining) := by
  induction remaining generalizing number with
  | zero => exact (hattempt number).mono fun _ _ => .last
  | succ remaining ih =>
    -- What follows an attempt completes every list of calls that the attempt may have made.
    refine (Makes.bind (q := fun x rest y => ∀ made, rule number made x →
      Repeated r rule pause number (remaining + 1) (made ++ rest) y) (hattempt number)
      fun x => ?_).mono ?_
    · cases x with
      | ok a =>
        refine (makes_pure (Except.ok a)).mono ?_
        rintro rest y ⟨rfl, rfl⟩ made hmade
        rw [List.append_nil]
        exact .done hmade
      | error e =>
        simp only
        split
        · rename_i hadmits
          split
          · rename_i f hdelay
            refine (makes_pure (Except.error f)).mono ?_
            rintro rest y ⟨rfl, rfl⟩ made hmade
            rw [List.append_nil]
            exact .unmeasured hadmits hdelay hmade
          · rename_i delay hdelay
            refine (Makes.bind (hpause number delay e) fun _ => ih (number + 1)).mono ?_
            rintro rest y ⟨between, _, rest, rfl, hbetween, hrest⟩ made hmade
            exact .again hadmits hdelay hmade hbetween hrest
        · rename_i hadmits
          refine (makes_pure (Except.error e)).mono ?_
          rintro rest y ⟨rfl, rfl⟩ made hmade
          rw [List.append_nil]
          exact .refused (by simpa using hadmits) hmade
    · rintro made y ⟨m, x, rest, rfl, hm, hrest⟩
      exact hrest m hm

end QueryGateway.Proofs.Retry
