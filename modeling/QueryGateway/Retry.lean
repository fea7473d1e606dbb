/-!
Repeated attempts. A failed attempt is followed by another one as long as attempts remain and the
failure may be tried again; the wait before it grows by the same amount every time. A wait that
cannot be worked out ends the attempts.
-/

set_option autoImplicit false
set_option relaxedAutoImplicit false

namespace QueryGateway

/-- How often to attempt something at most, and the unit of the waits. -/
structure RetryPolicy (δ : Type) where
  maxAttempts : Int
  baseDelay : δ
  deriving DecidableEq, Repr

def RetryPolicy.attempts {δ : Type} (p : RetryPolicy δ) : Nat := (max 1 p.maxAttempts).toNat

/-- What happens around attempts: how a unit of waits is multiplied, which failures are tried again,
what is told before a wait, and the wait itself. -/
structure Retry (m : Type → Type) (ε δ : Type) where
  policy : RetryPolicy δ
  times : δ → Nat → Except ε δ
  admits : ε → Bool
  announce : Nat → δ → ε → m Unit
  wait : δ → m Unit

namespace Retry

variable {m : Type → Type} [Monad m] {ε δ α : Type}

/-- The wait after a failed attempt: the unit times the number of the attempt. -/
def delayAfter (r : Retry m ε δ) (attempt : Nat) : Except ε δ := r.times r.policy.baseDelay attempt

def runFrom (r : Retry m ε δ) (attempt : Nat → m (Except ε α)) : Nat → Nat → m (Except ε α)
  | number, 0 => attempt number
  | number, remaining + 1 => do
    match ← attempt number with
    | .ok a => return .ok a
    | .error e =>
      if r.admits e then
        match r.delayAfter number with
        | .error f => return .error f
        | .ok delay =>
          r.announce number delay e
          r.wait delay
          runFrom r attempt (number + 1) remaining
      else return .error e

/-- Attempts until one succeeds, fails for good or is the last. -/
def run (r : Retry m ε δ) (attempt : Nat → m (Except ε α)) : m (Except ε α) :=
  runFrom r attempt 1 (r.policy.attempts - 1)

end Retry

end QueryGateway
