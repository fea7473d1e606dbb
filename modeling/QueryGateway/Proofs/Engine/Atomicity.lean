import QueryGateway.Proofs.Engine.Attempts
import QueryGateway.Proofs.Engine.Commits
import QueryGateway.Proofs.Engine.Results
import QueryGateway.Proofs.Entries

/-!
Transactions attempt by attempt. Once an attempt has begun its transaction, it executes statements
in the order of the plan and nothing else, commits if all of them ran, and rolls back at the first
that fails; the failure is told with the step that it is from.
-/

set_option autoImplicit false
set_option relaxedAutoImplicit false

namespace QueryGateway.Proofs.Engine.Atomicity

open QueryGateway.Database
open QueryGateway.Engine
open QueryGateway.Proofs.Database.Calls (course resultOf)
open QueryGateway.Proofs.Database.Events
open QueryGateway.Proofs.Engine.Attempts
open QueryGateway.Proofs.Engine.Commits (plainEngine unsent)
open QueryGateway.Proofs.Engine.Courses
open QueryGateway.Proofs.Engine.Results
open QueryGateway.Proofs.Engine.Telling
open QueryGateway.Proofs.Failure.Texts (fault?_within faultOf? faultOf?_eq_some)
open QueryGateway.Proofs.Failure.Translation
open QueryGateway.Proofs.Entries (get?_put)
open QueryGateway.Proofs.Retry.Tries
open QueryGateway.Proofs.Success (ok_getD)

variable {e : Engine} {plan : Plan}

/-! ## The failure of a step -/

/-- What a fault tells of the failure of a step: its class, code, hint and retry flag are those of
the failure, its message begins with the description of the statement, and its details have the
number of the step. -/
structure TellsStep (e : Engine) (number : Nat) (s : Statement) (f : Failure) (fault : Fault) :
    Prop where
  sort : ∀ alone, f.toFault (some e.settings) = .ok alone → fault.category = alone.category ∧
    fault.code = alone.code ∧ fault.hint = alone.hint ∧ fault.retryable = alone.retryable
  message : ∃ rest, fault.message = s.description ++ rest
  step : fault.details.get? "step" = some (.int number)

private theorem tellsStep_stepFault {f : Failure} {alone : Fault} (number : Nat) (s : Statement)
    (h : f.toFault (some e.settings) = .ok alone) :
    TellsStep e number s f (stepFault number s.description alone) where
  sort := by
    intro alone' h'
    rw [h] at h'
    cases h'
    exact ⟨rfl, rfl, rfl, rfl⟩
  message := ⟨_, String.append_assoc⟩
  step := get?_put _ _ _

private theorem told_stepFailure_iff (number : Nat) (s : Statement) (f : Failure) :
    (∃ fault, (e.told (stepFailure e number s f)).fault? = some fault ∧
      TellsStep e number s f fault) ↔ Tellable f := by
  constructor
  · rintro ⟨fault, hfault, htells⟩
    by_contra hnot
    -- What keeps the failure from being told is told in its place, as a failure of no step.
    obtain ⟨o, ho, hstep⟩ := stepFailure_of_not_tellable (e := e) number s hnot
    obtain ⟨g, hg⟩ := (toFault_ok_iff (some e.settings)).mpr
      (tellable_obstacle ho (some f))
    have hnone : (o.within (some f)).fault? = none := by rw [fault?_within, ho.fault?]
    rw [hstep, fault?_told hg] at hfault
    cases hfault
    exact nomatch htells.step.symm.trans (step_toFault hnone hg)
  · intro h
    obtain ⟨alone, halone⟩ := (toFault_ok_iff (some e.settings)).mpr h
    refine ⟨_, ?_, tellsStep_stepFault number s halone⟩
    rw [stepFailure_of_toFault number s halone]
    rfl

/-! ## Attempts -/

/-- An event in front of a transaction, or of one that does not begin. -/
def Unbegun (ev : Event) : Prop :=
  match ev.call with
  | .createPool _ _ | .checkOut _ | .release _ => True
  | .start _ => ev.outcome.succeeded = false
  | _ => False

/-- How an attempt of a transaction goes. Its transaction does not begin, or all statements of the
plan are executed in order and a commit follows, or those in front of one that fails are and a
rollback follows. Behind that there is only the release of the connection. The failure is told with
the step unless it cannot be told. -/
inductive Atomic (e : Engine) (plan : Plan) : List Event → Except Failure Result → Prop
  | unbegun {events : List Event} {f : Failure} : (∀ ev ∈ events, Unbegun ev) →
      Atomic e plan events (.error f)
  | completed {front m : List Event} {c : Nat} {rs : List StatementResult}
      {y : Except Failure Result}
      (reply : Reply) (o o' : Outcome) : (∀ ev ∈ front, Unbegun ev) →
      Ran e c plan.statements m rs →
      (o.succeeded = true → o'.succeeded = true →
        y = .ok (resultFrom plan rs)) →
      Atomic e plan
        (front ++ ⟨.start c, .done reply⟩ :: m ++ [⟨.commit c, o⟩, ⟨.release c, o'⟩]) y
  | broken {front m : List Event} {c place : Nat} {s : Statement} {f g : Failure}
      (reply : Reply) (o' : Outcome) : (∀ ev ∈ front, Unbegun ev) →
      Broke e c plan.statements m place s f →
      (o'.succeeded = true → ((∃ fault, g.fault? = some fault ∧
        TellsStep e (place + 1) s f fault) ↔ Tellable f)) →
      Atomic e plan
        (front ++ ⟨.start c, .done reply⟩ :: m ++ [.sure (.rollBack c), ⟨.release c, o'⟩])
        (.error g)

theorem unbegun_of_connects {m : List Event} {r : Except Failure Nat} (h : Connects m r) :
    ∀ ev ∈ m, Unbegun ev := by
  have hpool : ∀ {k : List Event}, Pooling k → ∀ ev ∈ k, Unbegun ev := by
    intro k hk ev hev
    obtain ⟨url, options, hcall⟩ := hk ev hev
    rw [Unbegun, hcall]
    trivial
  cases h with
  | poolless hm => exact hpool hm
  | refused c f hm => exact List.forall_mem_append.mpr ⟨hpool hm, by simp [Unbegun]⟩
  | connected c reply hm => exact List.forall_mem_append.mpr ⟨hpool hm, by simp [Unbegun]⟩

theorem afterRelease_error (o : Outcome) (f : Failure) :
    ∃ g, (afterRelease o (.error f) : Except Failure Result) = .error g ∧
      (o.succeeded = true → g = f) := by
  cases o with
  | failed g => exact ⟨_, rfl, nofun⟩
  | done reply => exact ⟨f, rfl, fun _ => rfl⟩

private theorem atomic_of_transacted {front k : List Event} {c : Nat} {q : Except Failure Result}
    (o' : Outcome) (htransactional : plan.transactional = true) (hfront : ∀ ev ∈ front, Unbegun ev)
    (h : Transacted c (Steps e c plan) k q) :
    Atomic e plan (front ++ (k ++ [⟨.release c, o'⟩])) ((afterRelease o' q).mapError e.told) := by
  cases h with
  | unstarted f =>
    obtain ⟨g, hg, _⟩ := afterRelease_error o' f
    rw [hg]
    refine .unbegun (List.forall_mem_append.mpr ⟨hfront, ?_⟩)
    simp [Unbegun, Outcome.succeeded]
  | @rolledBack m f reply hm =>
    rcases hm with ⟨rs, _, h⟩ | ⟨place, s, f, hbroke, hfailure⟩
    · cases h
    · cases hfailure
      obtain ⟨g, hg, hkept⟩ := afterRelease_error o' (stepFailure e (1 + place) s f)
      have htells : o'.succeeded = true → ((∃ fault, (e.told g).fault? = some fault ∧
          TellsStep e (place + 1) s f fault) ↔ Tellable f) := by
        intro ho'
        rw [hkept ho', Nat.add_comm 1 place]
        exact told_stepFailure_iff _ _ _
      have hall := Atomic.broken (g := e.told g) reply o' hfront hbroke htells
      rw [hg]
      change Atomic e plan _ (.error (e.told g))
      simpa using hall
  | @closed m a reply o hm =>
    rcases hm with ⟨rs, hran, hresult⟩ | ⟨_, _, _, _, h⟩
    · cases hresult
      have hresult : o.succeeded = true → o'.succeeded = true →
          (afterRelease o' ((resultOf o).map fun _ =>
            withSteps { kind := plan.kind } 1 plan.statements rs)).mapError e.told =
          .ok (resultFrom plan rs) := by
        rw [withSteps_eq_resultFrom hran.length_eq htransactional]
        intro ho ho'
        cases o with
        | failed f => cases ho
        | done reply =>
          cases o' with
          | failed f => cases ho'
          | done reply => rfl
      have hall := Atomic.completed reply o o' hfront hran hresult
      simpa using hall
    · cases h

private theorem atomic_of_held {events : List Event} {x : Except Failure Result}
    (htransactional : plan.transactional = true) (hinquiry : plan.inquiry = none)
    (h : Held (fun c => Worked e c plan) events x) : Atomic e plan events (x.mapError e.told) := by
  cases h with
  | unconnected hm => exact .unbegun (unbegun_of_connects hm)
  | connected hm hn =>
    obtain ⟨k, q, o', hwork, rfl, rfl⟩ := hn
    cases hwork with
    | inquired hsome _ => exact absurd hinquiry hsome
    | transacted _ _ h => exact atomic_of_transacted o' htransactional (unbegun_of_connects hm) h
    | single _ hfalse _ =>
      rw [htransactional] at hfalse
      cases hfalse

/-! ## Runs -/

theorem gives_run_transaction (htransactional : plan.transactional = true)
    (hinquiry : plan.inquiry = none) (request : Request) (p : Prospect) :
    ∃ front t,
      Gives (e.run request plan).run p (inRow e.settings.retryDelay 1 (front ++ [t]))
          (answered (front ++ [t]).length t.outcome) ∧
        ∀ u ∈ front ++ [t], Atomic e plan u.events u.outcome ∧
          ∃ q, Gives (e.attempt request plan) q u.events u.outcome := by
  have hping : isPing plan = false := by rw [isPing, hinquiry]
  have hattempt : ∀ q, ∃ events y, Gives (e.attempt request plan) q events y ∧
      Gives (e.attempt request plan) q events y ∧ Atomic e plan events y := by
    intro q
    obtain ⟨events, x, hwork, hheld⟩ := unfolds_attemptWork e request plan q
    have hgives := gives_attempt hwork
    exact ⟨events, _, hgives, hgives, atomic_of_held htransactional hinquiry hheld⟩
  obtain ⟨front, t, hrow, hrun⟩ := gives_run hping hattempt p
  refine ⟨front, t, hrun, ?_⟩
  intro u hu
  obtain ⟨before, hgives, hatomic⟩ := hrow.rule_of_mem u hu
  exact ⟨hatomic, _, hgives⟩

/-- Every attempt of a transaction executes statements from the first on, in order and nothing else,
and ends in a commit if all of them ran and in a rollback if not. -/
theorem run_transaction_atomic (e : Engine) (plan : Plan) (request : Request)
    (htransactional : plan.transactional = true) (hinquiry : plan.inquiry = none) (s : Session) :
    ∃ front t,
      (course (e.run request plan).run s).2.journal =
          (entries (inRow e.settings.retryDelay 1 (front ++ [t]))).reverse ++ s.journal ∧
        (prospect s).Allows (inRow e.settings.retryDelay 1 (front ++ [t])) ∧
        (course (e.run request plan).run s).1 = answered (front ++ [t]).length t.outcome ∧
        ∀ u ∈ front ++ [t], Atomic e plan u.events u.outcome ∧
          ∃ p, Gives (e.attempt request plan) p u.events u.outcome := by
  obtain ⟨front, t, hrun, hattempts⟩ :=
    gives_run_transaction (e := e) htransactional hinquiry request (prospect s)
  obtain ⟨hresult, _, hjournal⟩ := hrun.course s rfl
  exact ⟨front, t, hjournal, hrun.allowed, hresult, hattempts⟩

def addingTo (table : String) (n : Int) : Fields :=
  [("type", .text "create"), ("table", .text table), ("data", .object [("a", .int n)])]

def addingOnce : Plan :=
  ((Plan.ofOperation (.transaction [.described (addingTo "t" 1)])).toOption).getD
    { kind := .transaction }

def addingTwice : List TransactionStep :=
  [.described (addingTo "t" 1), .described (addingTo "u" 2)]

def addingTwicePlan : Plan :=
  ((Plan.ofOperation (.transaction addingTwice)).toOption).getD { kind := .transaction }

/-- The plan that empties two tables, the second one on condition that there is such a table. -/
def emptyingTwo : Plan :=
  { kind := .transaction
    statements :=
      [{ fragments := [.raw "DELETE FROM t"], description := "Empty t"
         prechecks := [.tableAbsent "v"] },
       { fragments := [.raw "DELETE FROM u"], description := "Empty u"
         prechecks := [.tableExists "u"] }]
    transactional := true }

def deadlocked : Session :=
  { script := fun kind =>
      if kind = .execute then
        [.failed (.mk (.general "DriverError") [.int 1213, .text "Deadlock found"] none none none)]
      else []
    hasPool := true }

theorem run_transaction_atomic_deadlocked :
    emptyingTwo.transactional = true ∧ emptyingTwo.inquiry = none ∧
      ∃ front t,
        (course (plainEngine.run ⟨"r", none, []⟩ emptyingTwo).run deadlocked).2.journal =
            (entries (inRow plainEngine.settings.retryDelay 1 (front ++ [t]))).reverse ++
              deadlocked.journal ∧
          (prospect deadlocked).Allows (inRow plainEngine.settings.retryDelay 1 (front ++ [t])) ∧
          (course (plainEngine.run ⟨"r", none, []⟩ emptyingTwo).run deadlocked).1 =
            answered (front ++ [t]).length t.outcome ∧
          ∀ u ∈ front ++ [t], Atomic plainEngine emptyingTwo u.events u.outcome ∧
            ∃ p, Gives (plainEngine.attempt ⟨"r", none, []⟩ emptyingTwo) p u.events u.outcome :=
  ⟨rfl, rfl, run_transaction_atomic plainEngine emptyingTwo ⟨"r", none, []⟩ rfl rfl deadlocked⟩

/-- A step fails and its connection is released, but the fault does not say which step it is. -/
theorem not_tellsStep_unsent :
    Plan.ofOperation (.transaction [.described (addingTo "t" 1)]) = .ok addingOnce ∧
      addingOnce.transactional = true ∧ addingOnce.inquiry = none ∧
      addingOnce.statements.map Statement.description = ["Step 1: Insert into table 't'"] ∧
      unsent.script .release = [] ∧
      ∃ f fault, (course (plainEngine.run ⟨"r", none, []⟩ addingOnce).run unsent).1 = .error f ∧
        f.fault? = some fault ∧
        fault.message = "Database error: not all arguments converted during string formatting" ∧
        fault.details.get? "step" = none := by
  have hplan : Plan.ofOperation (.transaction [.described (addingTo "t" 1)]) = .ok addingOnce :=
    ok_getD (by decide +kernel) _
  have hdescription : addingOnce.statements.map Statement.description =
      ["Step 1: Insert into table 't'"] := by decide +kernel
  have htold : (faultOf? (course (plainEngine.run ⟨"r", none, []⟩ addingOnce).run unsent).1).map
      (fun g => (g.message, (g.details.get? "step").isNone)) =
        some ("Database error: not all arguments converted during string formatting", true) := by
    decide +kernel
  obtain ⟨fault, hfault, hmatches⟩ := Option.map_eq_some_iff.mp htold
  obtain ⟨f, hf, hsome⟩ := faultOf?_eq_some hfault
  obtain ⟨hmessage, hstep⟩ := Prod.mk.inj hmatches
  exact ⟨hplan, by decide +kernel, by decide +kernel, hdescription, rfl, f, fault, hf, hsome,
    hmessage, Option.isNone_iff_eq_none.mp hstep⟩

end QueryGateway.Proofs.Engine.Atomicity
