import QueryGateway.Proofs.Engine.Atomicity
import QueryGateway.Proofs.Plan.Steps

/-!
Step numbers. A transaction is compiled by lifting the compiler of single operations to its steps,
so that a statement has the place of its step, and the number that is told where a statement fails
in a run is the number of the operation it is from.
-/

set_option autoImplicit false
set_option relaxedAutoImplicit false

namespace QueryGateway.Proofs.Engine.StepNumbers

open QueryGateway.Database
open QueryGateway.Engine
open QueryGateway.Plan (ofOperation)
open QueryGateway.Proofs.Database.Calls (course)
open QueryGateway.Proofs.Database.Events
open QueryGateway.Proofs.Engine.Atomicity
open QueryGateway.Proofs.Engine.Attempts
open QueryGateway.Proofs.Engine.Commits (plainEngine)
open QueryGateway.Proofs.Engine.Courses
open QueryGateway.Proofs.Failure.Texts (faultOf? faultOf?_eq_some isWritable_int)
open QueryGateway.Proofs.Failure.Translation (Tellable notSent)
open QueryGateway.Proofs.Number.Numeral (leastTooLong isTooLong_leastTooLong)
open QueryGateway.Proofs.Operation.Refusals (ofFields_of_not_writable tagOf)
open QueryGateway.Proofs.Plan.Steps
open QueryGateway.Proofs.Retry.Tries
open QueryGateway.Proofs.Success (ok_getD)

variable {e : Engine} {steps : List TransactionStep} {ss : List Statement} {plan : Plan}

/-! ## Runs -/

/-- An attempt in which the statement of the step at some place fails: the statements of the steps
in front of it ran, a rollback follows, and if the connection is then released a fault tells the
number of the step just where the failure can be told at all. -/
structure FailsAt (e : Engine) (steps : List TransactionStep) (plan : Plan) (place : Nat)
    (s : Statement) (events : List Event) (g : Failure) : Prop where
  origin : ∃ step alone, steps[place]? = some step ∧ Alone step (.ok alone) ∧
    Numbers (place + 1) alone s
  course : ∃ before c reply m f o, (∀ ev ∈ before, Unbegun ev) ∧
    Broke e c plan.statements m place s f ∧
    events = before ++ ⟨.start c, .done reply⟩ :: m ++ [.sure (.rollBack c), ⟨.release c, o⟩] ∧
    (o.succeeded = true → ((∃ fault, g.fault? = some fault ∧
      TellsStep e (place + 1) s f fault) ↔ Tellable f))

/-- An attempt that does not begin its transaction, runs the statements of all steps, or fails at
one of them. -/
inductive Staged (e : Engine) (steps : List TransactionStep) (plan : Plan) :
    List Event → Except Failure Result → Prop
  | unbegun {events : List Event} {f : Failure} : (∀ ev ∈ events, Unbegun ev) →
      Staged e steps plan events (.error f)
  | completed {events m : List Event} {c : Nat} {rs : List StatementResult}
      {y : Except Failure Result} : m <:+: events → Ran e c plan.statements m rs →
      Staged e steps plan events y
  | failed {events : List Event} {g : Failure} (place : Nat) (s : Statement) :
      FailsAt e steps plan place s events g → Staged e steps plan events (.error g)

/-- Runs of a plan in attempts that each go by the steps. -/
def RunsBySteps (e : Engine) (steps : List TransactionStep) (plan : Plan) : Prop :=
  ∀ (request : Request) (session : Session), ∃ front t,
    (course (e.run request plan).run session).2.journal =
        (entries (inRow e.settings.retryDelay 1 (front ++ [t]))).reverse ++ session.journal ∧
      (course (e.run request plan).run session).1 = answered (front ++ [t]).length t.outcome ∧
      ∀ u ∈ front ++ [t], Staged e steps plan u.events u.outcome

private theorem exists_origin (hsteps : AllAlone steps ss) (hplan : Lifted steps ss plan)
    {place : Nat} {s : Statement} (hs : plan.statements[place]? = some s) :
    ∃ step alone, steps[place]? = some step ∧ Alone step (.ok alone) ∧
      Numbers (place + 1) alone s := by
  obtain ⟨hlt, -⟩ := List.getElem?_eq_some_iff.mp hs
  have hplace : place < steps.length := hplan.length ▸ hlt
  have hss : place < ss.length := hsteps.length_eq ▸ hplace
  obtain ⟨s', hs', hnumbers⟩ := hplan.statements place _ (List.getElem?_eq_getElem hss)
  rw [hs] at hs'
  cases hs'
  exact ⟨_, _, List.getElem?_eq_getElem hplace, hsteps.get hplace hss, hnumbers⟩

private theorem staged_of_atomic (hsteps : AllAlone steps ss) (hplan : Lifted steps ss plan)
    {events : List Event} {y : Except Failure Result} (h : Atomic e plan events y) :
    Staged e steps plan events y := by
  cases h with
  | unbegun hevents => exact .unbegun hevents
  | @completed front m c rs y reply o o' hfront hran _ =>
    have hm : m <:+: front ++ ⟨.start c, .done reply⟩ :: m ++
        [⟨.commit c, o⟩, ⟨.release c, o'⟩] :=
      ⟨front ++ [⟨.start c, .done reply⟩], [⟨.commit c, o⟩, ⟨.release c, o'⟩], by simp⟩
    exact .completed hm hran
  | @broken front m c place s f g reply o' hfront hbroke htells =>
    have hs : plan.statements[place]? = some s := by
      obtain ⟨before, rest, _, _, _, hsplit, rfl, _⟩ := hbroke
      simp [hsplit]
    exact .failed place s ⟨exists_origin hsteps hplan hs,
      front, c, reply, m, f, o', hfront, hbroke, rfl, htells⟩

private theorem runsBySteps (e : Engine) (hsteps : AllAlone steps ss)
    (hplan : Lifted steps ss plan) :
    RunsBySteps e steps plan := by
  intro request session
  obtain ⟨front, t, hrun, hattempts⟩ := gives_run_transaction (e := e) hplan.transactional
    hplan.inquiry request (prospect session)
  obtain ⟨hresult, _, hjournal⟩ := hrun.course session rfl
  exact ⟨front, t, hjournal, hresult,
    fun u hu => staged_of_atomic hsteps hplan (hattempts u hu).1⟩

/-! ## Transactions -/

/-- What a transaction of steps comes to. If they all compile by themselves, it has their
statements, one for each and numbered, and its runs go by the steps; otherwise it fails as the first
that does not, told with its number just where that step is an operation or its type tag can be
written. -/
structure Lifts (steps : List TransactionStep) : Prop where
  compiled : ∀ ss, AllAlone steps ss → ∃ plan, ofOperation (.transaction steps) = .ok plan ∧
    Lifted steps ss plan ∧ ∀ e : Engine, RunsBySteps e steps plan
  refused : ∀ place step f, FirstFailing steps place f → steps[place]? = some step →
    ∃ g, ofOperation (.transaction steps) = .error g ∧
      ((∃ alone fault, f.fault? = some alone ∧ g.fault? = some fault ∧
        Retells (place + 1) alone fault) ↔ Tagged step)
  decided : (∃ ss, AllAlone steps ss) ∨ ∃ place f, FirstFailing steps place f

private theorem retells_iff_tagged {place : Nat} {step : TransactionStep} {f : Failure}
    (h : FirstFailing steps place f) (hstep : steps[place]? = some step) :
    (∃ alone fault, f.fault? = some alone ∧ (Plan.stepFailure (place + 1) f).fault? = some fault ∧
      Retells (place + 1) alone fault) ↔ Tagged step := by
  obtain ⟨_, hplace, halone⟩ := h.here
  rw [hstep] at hplace
  cases hplace
  constructor
  · rintro ⟨alone, _, hfault, -⟩
    by_contra hnot
    cases alone_of_not_tagged hnot halone
    cases hfault
  · intro htagged
    obtain ⟨alone, rfl⟩ := fault_of_tagged htagged halone
    exact ⟨alone, _, rfl, rfl, retells_stepFault _ _⟩

/-- Compiling a transaction lifts the compiler of single operations to its steps. -/
theorem ofTransaction_lifts (hne : steps ≠ []) : Lifts steps where
  compiled := by
    intro ss hss
    obtain ⟨plan, hplan, hlifted⟩ := lifted_of_allAlone hne hss
    exact ⟨plan, hplan, hlifted, fun e => runsBySteps e hss hlifted⟩
  refused := fun _ _ _ hfailing hstep =>
    ⟨_, ofTransaction_of_firstFailing hfailing, retells_iff_tagged hfailing hstep⟩
  decided := allAlone_or_firstFailing steps

/-- A step that an object describes, one that is an operation, and one of a kind that steps do not
have. -/
def mixedSteps : List TransactionStep :=
  [.described (addingTo "t" 1), .given (.delete "u" (some [("a", .int 1)])), .given (.list none)]

theorem ofTransaction_lifts_mixedSteps : mixedSteps ≠ [] ∧ Lifts mixedSteps ∧
    FirstFailing mixedSteps 2 (.ofFault (refusal .list)) := by
  have hne : mixedSteps ≠ [] := List.cons_ne_nil _ _
  have hfirst : ∃ s, Alone (.described (addingTo "t" 1)) (.ok s) :=
    ⟨_, .compiled rfl (by decide) rfl rfl⟩
  have hsecond : ∃ s, Alone (.given (.delete "u" (some [("a", .int 1)]))) (.ok s) :=
    ⟨_, .compiled rfl (by decide) rfl rfl⟩
  have hthird : Alone (.given (.list none))
      (.error (.ofFault (refusal (Operation.list none).kind))) := .unsuited rfl (by decide)
  refine ⟨hne, ofTransaction_lifts hne, ?_, _, rfl, hthird⟩
  intro i hi
  obtain rfl | rfl : i = 0 ∨ i = 1 := by omega
  · obtain ⟨s, hs⟩ := hfirst
    exact ⟨_, s, rfl, hs⟩
  · obtain ⟨s, hs⟩ := hsecond
    exact ⟨_, s, rfl, hs⟩

def secondUnsent : Session :=
  { script := fun kind =>
      if kind = .execute then [.done { rowCount := some 1 }, .failed notSent] else []
    hasPool := true }

/-- A step whose type tag has too many digits is refused without its number, and a step that fails
as its statement is not sent is told without it. -/
theorem not_numbered_unsent :
    (∃ f, ofOperation (.transaction [.described [("type", .int leastTooLong)]]) = .error f ∧
      f.fault? = none) ∧
    ofOperation (.transaction addingTwice) = .ok addingTwicePlan ∧
      secondUnsent.script .release = [] ∧
      ∃ f fault, (course (plainEngine.run ⟨"r", none, []⟩ addingTwicePlan).run secondUnsent).1 =
          .error f ∧ f.fault? = some fault ∧ fault.details.get? "step" = none := by
  have htag : (tagOf [("type", .int leastTooLong)]).isWritable = false := by
    change (Value.int leastTooLong).isWritable = false
    rw [isWritable_int, isTooLong_leastTooLong]
    rfl
  have hrefused : ofOperation (.transaction [.described [("type", .int leastTooLong)]]) =
      .error .unwritable := by
    have hfailing : FirstFailing [.described [("type", .int leastTooLong)]] 0 .unwritable :=
      ⟨nofun, _, rfl, .unread (ofFields_of_not_writable htag)⟩
    exact ofTransaction_of_firstFailing hfailing
  have hplan : ofOperation (.transaction addingTwice) = .ok addingTwicePlan :=
    ok_getD (by decide +kernel) _
  have htold : (faultOf? (course
      (plainEngine.run ⟨"r", none, []⟩ addingTwicePlan).run secondUnsent).1).map
        (fun g => (g.details.get? "step").isNone) = some true := by decide +kernel
  obtain ⟨fault, hfault, hstep⟩ := Option.map_eq_some_iff.mp htold
  obtain ⟨f, hf, hsome⟩ := faultOf?_eq_some hfault
  exact ⟨⟨_, hrefused, rfl⟩, hplan, rfl, f, fault, hf, hsome, Option.isNone_iff_eq_none.mp hstep⟩

end QueryGateway.Proofs.Engine.StepNumbers
