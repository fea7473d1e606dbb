import QueryGateway.Proofs.Failure.Translation

/-!
Failures of the system that tell what became of a connection, and whether the gateway sees them. It
takes the first one along the chain of causes, unless the driver's failure starts with an integer:
that is read as a number of the server, also where the system put it.
-/

set_option autoImplicit false
set_option relaxedAutoImplicit false

namespace QueryGateway.Proofs.Failure.Signals

open QueryGateway.Failure
open QueryGateway.Proofs.Failure.Translation

/-! ## Signals -/

/-- The failures of the system that tell something about a connection, with what each stands for. -/
inductive IsSignal (f : Failure) : Symptom → Prop
  | refused : f.kind = .system .refused → IsSignal f .refused
  | reset : f.kind = .system .reset → IsSignal f .reset
  | brokenPipe : f.kind = .system .brokenPipe → IsSignal f .brokenPipe
  | timedOut : f.kind = .system .timedOut → IsSignal f .timedOut

/-- A failure with a signal in the chain of what led to it, and no other signal before that one. -/
def HasFirstSignal (f : Failure) (s : Symptom) : Prop :=
  ∃ before g after, f.chain = before ++ g :: after ∧ IsSignal g s ∧
    ∀ h ∈ before, ∀ t, ¬ IsSignal h t

def IsNumbered (f : Failure) : Prop := ∃ n more, f.arguments = .int n :: more

/-- A failure that the gateway takes for some symptom, and for one that may pass. -/
structure IsRecognised (e : Failure) (s : Symptom) : Prop where
  symptom : Symptom.ofFailure? e = .ok (some s)
  retryable : e.isRetryable = .ok true

variable {e f : Failure} {s : Symptom}

private theorem ofSystem?_eq_some_iff : Symptom.ofSystem? f = some s ↔ IsSignal f s := by
  constructor
  · intro h
    unfold Symptom.ofSystem? at h
    split at h
    all_goals cases h
    · exact .refused ‹_›
    · exact .reset ‹_›
    · exact .brokenPipe ‹_›
    · exact .timedOut ‹_›
  · rintro (h | h | h | h) <;> rw [Symptom.ofSystem?, h]

private theorem ofSystem?_eq_none_iff : Symptom.ofSystem? f = none ↔ ∀ t, ¬ IsSignal f t := by
  simp only [Option.eq_none_iff_forall_ne_some, ne_eq, ofSystem?_eq_some_iff]

private theorem findSome?_ofSystem?_iff :
    f.chain.findSome? Symptom.ofSystem? = some s ↔ HasFirstSignal f s := by
  simp only [List.findSome?_eq_some_iff, ofSystem?_eq_some_iff, ofSystem?_eq_none_iff,
    HasFirstSignal]

private theorem exists_chain_eq (f : Failure) : ∃ causes, f.chain = f :: causes := by
  obtain ⟨kind, arguments, origin, cause, context⟩ := f
  cases cause with
  | some c => exact ⟨_, rfl⟩
  | none =>
    cases context with
    | some c => exact ⟨_, rfl⟩
    | none => exact ⟨_, rfl⟩

theorem IsSignal.first (h : IsSignal f s) : HasFirstSignal f s := by
  obtain ⟨causes, hchain⟩ := exists_chain_eq f
  exact ⟨[], f, causes, hchain, h, nofun⟩

theorem IsSignal.isTransient (h : IsSignal f s) : s.isTransient = true := by
  cases h <;> rfl

/-! ## Numbers -/

private theorem number?_eq_none_iff : f.number? = none ↔ ¬ IsNumbered f := by
  rw [Failure.number?, IsNumbered]
  split <;> simp_all

private theorem ofNumber?_ne_of_isSignal (h : IsSignal f s) (n : Int) :
    Symptom.ofNumber? n ≠ some s := by
  have hnumbers : ∀ p ∈ Symptom.numbers,
      p.2 ∉ [Symptom.refused, .reset, .brokenPipe, .timedOut] := by decide
  have hs : s ∈ [Symptom.refused, .reset, .brokenPipe, .timedOut] := by cases h <;> decide
  intro hnumber
  obtain ⟨p, hfind, rfl⟩ := Option.map_eq_some_iff.mp hnumber
  exact hnumbers p (List.mem_of_find?_eq_some hfind) hs

/-! ## What the gateway makes of signals -/

private theorem ofFailure?_of_number {n : Int} (hpool : e.kind ≠ .poolTimeout)
    (h : e.unwrapped.number? = some n) : Symptom.ofFailure? e = .ok (Symptom.ofNumber? n) := by
  rw [Symptom.ofFailure?]
  split
  · exact absurd ‹_› hpool
  · rw [h]

private theorem ofFailure?_of_firstSignal (hpool : e.kind ≠ .poolTimeout)
    (hnumber : ¬ IsNumbered e.unwrapped) (h : HasFirstSignal e.unwrapped s) :
    Symptom.ofFailure? e = .ok (some s) := by
  rw [Symptom.ofFailure?]
  split
  · exact absurd ‹_› hpool
  · rw [number?_eq_none_iff.mpr hnumber]
    simp only [Symptom.ofUnnumbered?, findSome?_ofSystem?_iff.mpr h]

/-- A failure that is, or was caused by, a signal of the system is recognised just if the failure of
the driver does not start with an integer, and if it is no fault that says of itself that it may not
be tried again. -/
theorem isRecognised_iff (hpool : e.kind ≠ .poolTimeout)
    (h : IsSignal e.unwrapped s ∨ ¬ IsNumbered e.unwrapped ∧ HasFirstSignal e.unwrapped s) :
    IsRecognised e s ↔
      ¬ IsNumbered e.unwrapped ∧ ∀ g, e.fault? = some g → g.retryable = true := by
  have hfirst : HasFirstSignal e.unwrapped s := h.elim IsSignal.first And.right
  obtain ⟨_, g, _, _, hsignal, _⟩ := id hfirst
  constructor
  · rintro ⟨hsymptom, hretryable⟩
    refine ⟨fun hnumbered => ?_, fun g hg => ?_⟩
    · cases hn : e.unwrapped.number? with
      | none => exact number?_eq_none_iff.mp hn hnumbered
      | some n =>
        rw [ofFailure?_of_number hpool hn] at hsymptom
        exact ofNumber?_ne_of_isSignal hsignal n (Except.ok.inj hsymptom)
    · rw [isRetryable_of_refusal hg] at hretryable
      exact Except.ok.inj hretryable
  · rintro ⟨hnumbered, hflag⟩
    have hsymptom := ofFailure?_of_firstSignal hpool hnumbered hfirst
    refine ⟨hsymptom, ?_⟩
    cases hfault : e.fault? with
    | some g => rw [isRetryable_of_refusal hfault, hflag g hfault]
    | none =>
      rw [isRetryable_of_symptom hfault hsymptom, Option.map_some, Option.getD_some,
        hsignal.isTransient]

def refusedConnection : Failure :=
  .mk (.system .refused) [.int 111, .text "Connection refused"] none none none

/-- A statement that failed because the driver could not connect. -/
def unconnected : Failure :=
  .mk (.statement "OperationalError" false false) []
    (some (.mk (.general "DriverError") [.text "Can't connect"] none (some refusedConnection) none))
    none none

theorem isRecognised_iff_unconnected :
    unconnected.kind ≠ .poolTimeout ∧ ¬ IsNumbered unconnected.unwrapped ∧
      HasFirstSignal unconnected.unwrapped .refused ∧ IsRecognised unconnected .refused := by
  have hpool : unconnected.kind ≠ .poolTimeout := FailureKind.noConfusion
  have hnumber : ¬ IsNumbered unconnected.unwrapped := number?_eq_none_iff.mp rfl
  have hfirst : HasFirstSignal unconnected.unwrapped .refused := findSome?_ofSystem?_iff.mp rfl
  have hnone : unconnected.fault? = none := rfl
  have hfault : ∀ g, unconnected.fault? = some g → g.retryable = true := by
    intro g hg
    rw [hnone] at hg
    cases hg
  exact ⟨hpool, hnumber, hfirst,
    (isRecognised_iff hpool (.inr ⟨hnumber, hfirst⟩)).mpr ⟨hnumber, hfault⟩⟩

/-- A refused connection is not recognised where it is the driver's failure itself. -/
theorem not_isRecognised_refusedConnection :
    IsSignal refusedConnection.unwrapped .refused ∧
      Symptom.ofFailure? refusedConnection = .ok none ∧
      refusedConnection.isRetryable = .ok false :=
  ⟨.refused rfl, rfl, rfl⟩

end QueryGateway.Proofs.Failure.Signals
