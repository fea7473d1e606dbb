import QueryGateway.Proofs.Engine.Attempts
import QueryGateway.Proofs.Engine.Commits

/-!
What a transaction makes of a failure. Its steps go through the same calls as statements outside of
one, and where one of them fails, the fault of the step is of the sort that the failure alone would
be told as. Whether a plan is attempted again does not depend on the transaction around it, if the
failure can be told at all.
-/

set_option autoImplicit false
set_option relaxedAutoImplicit false

namespace QueryGateway.Proofs.Engine.Retrying

open QueryGateway.Database
open QueryGateway.Engine
open QueryGateway.Proofs.Database.Calls (course)
open QueryGateway.Proofs.Database.Events
open QueryGateway.Proofs.Engine.Commits (plainEngine)
open QueryGateway.Proofs.Engine.Courses
open QueryGateway.Proofs.Engine.Telling
open QueryGateway.Proofs.Failure.Texts (written_int_of_tooLong)
open QueryGateway.Proofs.Failure.Translation
open QueryGateway.Proofs.Number.Numeral (isTooLong_leastTooLong leastTooLong)

variable {e : Engine} {c : Nat} {f : Failure}

/-! ## Failures told once -/

private theorem fault?_told_stepFailure {g : Fault} (number : Nat) (s : Statement)
    (h : f.toFault (some e.settings) = .ok g) :
    ∃ g', (e.told (stepFailure e number s f)).fault? = some g' ∧ OfOneSort g' g := by
  refine ⟨stepFault number s.description g, ?_, rfl, rfl, rfl⟩
  rw [stepFailure_of_toFault number s h]
  rfl

private theorem isRetryable_told_eq {g : Fault} (h : f.toFault (some e.settings) = .ok g) :
    (e.told f).isRetryable = .ok g.retryable :=
  isRetryable_of_refusal (fault?_told h)

private theorem told_told (e' : Engine) (h : Tellable f) : e'.told (e.told f) = e.told f := by
  obtain ⟨g, hg⟩ := (fault?_told_iff (e := e)).mpr h
  exact told_of_fault hg

/-! ## Steps of a transaction -/

/-- A step goes as its statement does; a failure of the statement is told with the step. -/
private theorem gives_runStep (request : Request) (number : Nat) {s : Statement} {p : Prospect}
    {events : List Event} {y : Except Failure StatementResult}
    (h : Gives (e.execute c s).run p events y) :
    Gives (e.runStep request c number s).run p events (y.mapError (stepFailure e number s)) := by
  have hexecuted : Gives (ExceptT.lift (e.execute c s).run : Attempt _).run p events (.ok y) :=
    h.lift
  have hlog : ∀ level message fields p, Gives (ExceptT.lift (logFor request level message fields) :
      Attempt Unit).run p [] (.ok ()) := fun _ _ _ p => (gives_logFor _ _ _ _ p).lift
  refine Gives.andThen (hlog _ _ _ p) ?_
  rw [← List.append_nil events]
  refine Gives.andThen hexecuted ?_
  cases y with
  | ok r => exact gives_pure _ _
  | error f =>
    simp only [Except.mapError, stepFailure]
    cases e.faultOf f with
    | error g => exact gives_pure _ _
    | ok g => exact Gives.andThen (m := []) (gives_pure _ _) <|
        Gives.andThen (hlog _ _ _ _) (gives_pure _ _)

/-- Statements and steps side by side: both come to an end, or one of the statements fails and the
step of it with it. -/
inductive SideBySide (e : Engine) :
    Except Failure Result → Except Failure Result → Prop
  | completed (r r' : Result) : SideBySide e (.ok r) (.ok r')
  | failed (number : Nat) (s : Statement) (f : Failure) :
      SideBySide e (.error f) (.error (stepFailure e number s f))

private theorem gives_runSteps (request : Request) (ss : List Statement) (result result' : Result)
    (number : Nat) (p : Prospect) : ∃ events r r',
      Gives (e.runStatements c result ss).run p events r ∧
        Gives (e.runSteps request c result' number ss).run p events r' ∧ SideBySide e r r' := by
  -- The two keep different results and numbers; the events do not depend on them.
  induction ss generalizing result result' number p with
  | nil => exact ⟨[], _, _, gives_pure _ p, gives_pure _ p, .completed result result'⟩
  | cons s ss ih =>
    obtain ⟨m, y, hexecuted, _⟩ := unfolds_execute (e := e) (c := c) s p
    have hstep := gives_runStep request number hexecuted
    cases y with
    | ok outcome =>
      obtain ⟨n, r, r', hstatements, hsteps, hsides⟩ := ih (result.adding outcome)
        (result'.addingStep number s.description outcome) (number + 1) (p.through m)
      exact ⟨m ++ n, r, r', hexecuted.andThen hstatements, hstep.andThen hsteps, hsides⟩
    | error f =>
      exact ⟨m, _, _, hexecuted.stop, hstep.stop, .failed number s f⟩

/-! ## Whole transactions -/

private theorem gives_runTransaction (request : Request) {plan : Plan} {p : Prospect}
    {reply : Reply} {events : List Event} (hstart : p.script.next .start = .done reply)
    (h : Gives (e.runSteps request c { kind := plan.kind } 1 plan.statements).run
      (p.after ⟨.start c, .done reply⟩) events (.error f)) :
    Gives (e.runTransaction request c plan).run p
      (⟨.start c, .done reply⟩ :: (events ++ [.sure (.rollBack c)])) (.error f) := by
  have hcall := gives_call .start (.start c) rfl nofun (fun _ _ => rfl) p
  rw [hstart] at hcall
  have hrollBack : ∀ p, Gives (do
      note (.rollBack c)
      throw f : Attempt Result).run p [.sure (.rollBack c)] (.error f) := by
    intro p
    have hnote := (gives_note (c := .rollBack c) rfl (fun _ => rfl) p).lift
    exact Gives.andThen hnote (gives_pure _ _)
  have hwork : Gives (inTransaction c
      (e.runSteps request c { kind := plan.kind } 1 plan.statements)).run p
      ([⟨.start c, .done reply⟩] ++ (events ++ [.sure (.rollBack c)])) (.error f) :=
    hcall.andThen (h.lift.andThen (hrollBack _))
  exact Gives.andThen (m := []) (gives_logFor _ _ _ _ p).lift hwork.stop

/-- A transaction whose start succeeds fails with the step of the statement that would fail outside
of a transaction. -/
private theorem exists_stepFailure (request : Request) {plan : Plan} (result : Result) {s : Session}
    (hstart : (s.script.next .start).succeeded = true)
    (hfails : (course (e.runStatements c result plan.statements).run
      (s.afterCall .start (.start c))).1 = .error f) :
    ∃ number statement, (course (e.runTransaction request c plan).run s).1 =
      .error (stepFailure e number statement f) := by
  obtain ⟨reply, hreply⟩ : ∃ reply, s.script.next .start = .done reply := by
    cases ho : s.script.next .start with
    | failed g =>
      rw [ho] at hstart
      cases hstart
    | done reply => exact ⟨reply, rfl⟩
  obtain ⟨events, r, r', hstatements, hsteps, hsides⟩ := gives_runSteps (e := e) (c := c) request
    plan.statements result { kind := plan.kind } 1 ((prospect s).after ⟨.start c, .done reply⟩)
  have hr := (hstatements.course (s.afterCall .start (.start c)) rfl).1
  rw [hfails] at hr
  cases hsides with
  | completed r r' => cases hr
  | failed number statement f' =>
    cases hr
    have htransaction := gives_runTransaction request hreply hsteps
    exact ⟨number, statement, (htransaction.course s rfl).1⟩

/-- What a failure is taken for does not depend on who looks at it. It may be tried again just where
the fault that tells it may be, and a failure that is no fault is told as a passing one just where
its symptom may pass. To tell a fault changes nothing. Where a statement of a transaction fails, the
transaction fails with a fault of the sort that the failure would be told as outside of it, and
either both are tried again or neither. -/
structure Alike (e : Engine) (f : Failure) : Prop where
  retryable : ∀ target, ∃ g, f.toFault target = .ok g ∧ f.isRetryable = .ok g.retryable
  transient : f.fault? = none → ∀ target, ∃ g, f.toFault target = .ok g ∧
    (g.category = .transient ↔
      ∃ s, Symptom.ofFailure? f = .ok (some s) ∧ s.isTransient = true)
  again : ∀ target target' (g : Fault) (h : Failure), f.toFault target = .ok g →
    h.fault? = some g → h.toFault target' = .ok g
  told : ∀ e' : Engine, e'.told (e.told f) = e.told f
  step : ∀ (request : Request) (plan : Plan) (c : Nat) (result : Result) (s : Session),
    (s.script.next .start).succeeded = true →
    (course (e.runStatements c result plan.statements).run
      (s.afterCall .start (.start c))).1 = .error f →
    ∃ g h alone, (course (e.runTransaction request c plan).run s).1 = .error g ∧
      (e.told g).fault? = some h ∧ f.toFault (some e.settings) = .ok alone ∧ OfOneSort h alone ∧
      ∀ number, (e.planRetry request plan).admits ⟨number, e.told g⟩ =
        (e.planRetry request plan).admits ⟨number, e.told f⟩

private theorem alike_of_tellable (e : Engine) (h : Tellable f) : Alike e f where
  retryable := by
    intro target
    obtain ⟨g, hg⟩ := (toFault_ok_iff target).mpr h
    exact ⟨g, hg, isRetryable_of_toFault hg⟩
  transient := by
    intro hf target
    obtain ⟨g, hg⟩ := (toFault_ok_iff target).mpr h
    exact ⟨g, hg, category_toFault_iff hf hg⟩
  again := fun _ _ _ _ _ hg => toFault_of_refusal hg
  told := fun e' => told_told e' h
  step := by
    intro request plan c result s hstart hfails
    obtain ⟨alone, halone⟩ := (toFault_ok_iff (some e.settings)).mpr h
    obtain ⟨number, statement, hbroken⟩ := exists_stepFailure request result hstart hfails
    obtain ⟨told, htold, hsort⟩ := fault?_told_stepFailure number statement halone
    have hadmits : ∀ n g, (e.planRetry request plan).admits ⟨n, g⟩ =
        g.isRetryable.toOption.getD false := fun _ _ => rfl
    refine ⟨_, told, alone, hbroken, htold, halone, hsort, ?_⟩
    intro n
    rw [hadmits, hadmits, isRetryable_of_refusal htold, isRetryable_told_eq halone, hsort.retryable]

/-- Failures are taken for the same everywhere just if they can be told. -/
theorem retryable_alike (e : Engine) (f : Failure) : Alike e f ↔ Tellable f :=
  ⟨fun h => (toFault_ok_iff _).mp ((h.retryable none).imp fun _ hg => hg.1), alike_of_tellable e⟩

private theorem not_alike_of_error {o : Failure} (h : f.toFault none = .error o) : ¬ Alike e f := by
  intro halike
  obtain ⟨g, hg, _⟩ := halike.retryable none
  rw [h] at hg
  cases hg

def numberless : Failure := .mk (.general "DriverError") [.int leastTooLong] none none none

/-- A statement that was not sent cannot be told, and neither can a number that has too many digits,
of which it is nevertheless known that it is not to be tried again. -/
theorem not_alike_unsent : (notSent.fault? = none ∧ notSent.toFault none = .error .unplaced ∧
      ¬ Alike plainEngine notSent) ∧
    numberless.fault? = none ∧ numberless.isRetryable = .ok false ∧
      numberless.toFault none = .error .unwritable ∧ ¬ Alike plainEngine numberless := by
  have hunlisted : Symptom.ofNumber? leastTooLong = none := by decide +kernel
  have hsymptom : Symptom.ofFailure? numberless = .ok none := congrArg Except.ok hunlisted
  have hmessage : numberless.driverMessage = .error .unwritable :=
    written_int_of_tooLong isTooLong_leastTooLong
  have hfault : numberless.toFault none = .error .unwritable := by
    rw [toFault_eq none rfl, hsymptom, Except.bind, hmessage]
    rfl
  refine ⟨⟨rfl, toFault_notSent none, not_alike_of_error (toFault_notSent none)⟩, rfl, ?_⟩
  exact ⟨isRetryable_of_symptom rfl hsymptom, hfault, not_alike_of_error hfault⟩

end QueryGateway.Proofs.Engine.Retrying
