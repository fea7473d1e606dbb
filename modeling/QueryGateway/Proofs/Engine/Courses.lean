import QueryGateway.Engine.Run
import QueryGateway.Proofs.Database.Events
import QueryGateway.Proofs.Engine.Conditions
import QueryGateway.Proofs.Engine.Telling

/-!
How the parts of the engine go: the events of a statement, of statements in turn, of a plan on its
connection and of all its attempts, each with what it comes to.
-/

set_option autoImplicit false
set_option relaxedAutoImplicit false

namespace QueryGateway.Proofs.Engine.Courses

open QueryGateway.Database
open QueryGateway.Engine
open QueryGateway.Proofs.Database.Events
open QueryGateway.Proofs.Engine.Conditions
open QueryGateway.Proofs.Engine.Telling
open QueryGateway.Proofs.Failure.Texts (IsObstacle)
open QueryGateway.Proofs.Failure.Translation (Tellable)

variable {α : Type} {e : Engine} {c : Nat}

theorem gives_logFor (request : Request) (level : Log.Level) (message : String) (fields : Fields)
    (p : Prospect) : Gives (logFor request level message fields) p [] () :=
  gives_log _ _ _ _ p

private theorem unfolds_orFailure (x : Except Failure α) : Unfolds (orFailure x).run fun events r =>
    events = [] ∧ r = x := by
  cases x with
  | error f => exact unfolds_pure _
  | ok a => exact unfolds_pure _

/-! ## Statements -/

/-- The call that executes a statement, its marks written the way the driver wants them. -/
def executionOf (d : Dialect) (c : Nat) (s : Statement) : Except Failure Call :=
  if s.params.isEmpty then .ok (.execute c s.sql none)
  else (renderedFor d s.chars).map fun sql => .execute c sql (some s.params)

theorem exists_of_executionOf {d : Dialect} {s : Statement} {x : Call}
    (h : executionOf d c s = .ok x) : ∃ sql params, x = .execute c sql params := by
  unfold executionOf at h
  split at h
  · cases h
    exact ⟨_, _, rfl⟩
  · cases hsql : renderedFor d s.chars with
    | error f =>
      rw [hsql] at h
      cases h
    | ok sql =>
      rw [hsql] at h
      cases h
      exact ⟨_, _, rfl⟩

def readOff : Outcome → Except Failure StatementResult
  | .failed f => .error f
  | .done reply => Engine.resultOf reply

/-- How a statement goes on a connection: a condition on the schema does not hold, its text cannot
be written for the driver, or it is executed. -/
inductive Carried (e : Engine) (c : Nat) (s : Statement) :
    List Event → Except Failure StatementResult → Prop
  | unmet {front rest : List Precheck} {p : Precheck} {f : Failure} :
      FirstUnmet e.server s.prechecks front rest p f → Carried e c s [] (.error f)
  | unwritten {f : Failure} : AllMet e.server s.prechecks →
      executionOf e.server.dialect c s = .error f → Carried e c s [] (.error f)
  | executed {x : Call} (o : Outcome) : AllMet e.server s.prechecks →
      executionOf e.server.dialect c s = .ok x → Carried e c s [⟨x, o⟩] (readOff o)

private theorem unfolds_executeCall (sql : String) (params : Option (List Value)) :
    Unfolds (call .execute (.execute c sql params) >>=
        fun reply => orFailure (Engine.resultOf reply) :
      Attempt StatementResult).run fun events r =>
      ∃ o, events = [⟨.execute c sql params, o⟩] ∧ r = readOff o := by
  have hcall := unfolds_call .execute (.execute c sql params) rfl nofun
    fun _ _ => rfl
  refine (Unfolds.andThen hcall fun reply => unfolds_orFailure _).mono ?_
  rintro events r (⟨f, rfl, o, rfl, ho⟩ | ⟨m, reply, n, rfl, ⟨o, rfl, ho⟩, rfl, rfl⟩)
  · cases o with
    | failed g =>
      cases ho
      exact ⟨_, rfl, rfl⟩
    | done reply => cases ho
  · cases o with
    | failed g => cases ho
    | done reply' =>
      cases ho
      exact ⟨_, rfl, rfl⟩

theorem unfolds_execute (s : Statement) : Unfolds (e.execute c s).run (Carried e c s) := by
  cases hcheck : checkAll e.server s.prechecks with
  | error f =>
    have hrun : e.execute c s = throw f := by
      rw [execute, hcheck]
      rfl
    rw [hrun]
    refine (unfolds_pure _).mono ?_
    rintro events r ⟨rfl, rfl⟩
    obtain ⟨front, p, rest, hfirst⟩ := firstUnmet_of_checkAll hcheck
    exact .unmet hfirst
  | ok u =>
    have hmet := checkAll_ok_iff.mp hcheck
    cases hparams : s.params.isEmpty with
    | true =>
      have hcall : executionOf e.server.dialect c s = .ok (.execute c s.sql none) := by
        rw [executionOf, hparams, if_pos rfl]
      have hrun : e.execute c s = call .execute (.execute c s.sql none) >>= fun reply =>
          orFailure (Engine.resultOf reply) := by
        rw [execute, hcheck, hparams]
        rfl
      rw [hrun]
      refine (unfolds_executeCall _ _).mono ?_
      rintro events r ⟨o, rfl, rfl⟩
      exact .executed o hmet hcall
    | false =>
      cases hsql : renderedFor e.server.dialect s.chars with
      | error f =>
        have hcall : executionOf e.server.dialect c s = .error f := by
          rw [executionOf, hparams, hsql]
          rfl
        have hrun : e.execute c s = throw f := by
          rw [execute, hcheck, hparams, hsql]
          rfl
        rw [hrun]
        refine (unfolds_pure _).mono ?_
        rintro events r ⟨rfl, rfl⟩
        exact .unwritten hmet hcall
      | ok sql =>
        have hcall : executionOf e.server.dialect c s =
            .ok (.execute c sql (some s.params)) := by
          rw [executionOf, hparams, hsql]
          rfl
        have hrun : e.execute c s = call .execute (.execute c sql (some s.params)) >>=
            fun reply => orFailure (Engine.resultOf reply) := by
          rw [execute, hcheck, hparams, hsql]
          rfl
        rw [hrun]
        refine (unfolds_executeCall _ _).mono ?_
        rintro events r ⟨o, rfl, rfl⟩
        exact .executed o hmet hcall

/-! ## Statements in turn -/

/-- Statements that all run, one after another. -/
inductive Ran (e : Engine) (c : Nat) :
    List Statement → List Event → List StatementResult → Prop
  | nil : Ran e c [] [] []
  | cons {s : Statement} {ss : List Statement} {m n : List Event} {r : StatementResult}
      {rs : List StatementResult} : Carried e c s m (.ok r) → Ran e c ss n rs →
      Ran e c (s :: ss) (m ++ n) (r :: rs)

theorem Ran.length_eq {ss : List Statement} {m : List Event} {rs : List StatementResult}
    (h : Ran e c ss m rs) : ss.length = rs.length := by
  induction h with
  | nil => rfl
  | cons _ _ ih => rw [List.length_cons, List.length_cons, ih]

/-- Statements of which one fails: those in front of it ran, those behind it are left alone. -/
def Broke (e : Engine) (c : Nat) (ss : List Statement) (events : List Event) (place : Nat)
    (s : Statement) (f : Failure) : Prop :=
  ∃ front rest m n rs, ss = front ++ s :: rest ∧ front.length = place ∧ events = m ++ n ∧
    Ran e c front m rs ∧ Carried e c s n (.error f)

private theorem broke_here {s : Statement} {events : List Event} {f : Failure} (ss : List Statement)
    (h : Carried e c s events (.error f)) : Broke e c (s :: ss) events 0 s f :=
  ⟨[], ss, [], events, [], rfl, rfl, rfl, .nil, h⟩

theorem Broke.later {s t : Statement} {ss : List Statement} {m n : List Event} {place : Nat}
    {r : StatementResult} {f : Failure} (hs : Carried e c s m (.ok r))
    (h : Broke e c ss n place t f) : Broke e c (s :: ss) (m ++ n) (place + 1) t f := by
  obtain ⟨front, rest, k, l, rs, rfl, rfl, rfl, hfront, hlast⟩ := h
  exact ⟨s :: front, rest, m ++ k, l, r :: rs, rfl, rfl, (List.append_assoc m k l).symm,
    .cons hs hfront, hlast⟩

/-- How statements go in turn, with what comes of their results, or of the failure of one. -/
def InTurn (e : Engine) (c : Nat) (ss : List Statement) (whole : List StatementResult → α)
    (broken : Nat → Statement → Failure → Failure) (events : List Event) (r : Except Failure α) :
    Prop :=
  (∃ rs, Ran e c ss events rs ∧ r = .ok (whole rs)) ∨
    ∃ place s f, Broke e c ss events place s f ∧ r = .error (broken place s f)

private theorem inTurn_nil (whole : List StatementResult → α)
    {broken : Nat → Statement → Failure → Failure} :
    Unfolds (pure (whole []) : Attempt α).run (InTurn e c [] whole broken) := by
  refine (unfolds_pure _).mono ?_
  rintro events r ⟨rfl, rfl⟩
  exact .inl ⟨[], .nil, rfl⟩

private theorem inTurn_cons {s : Statement} {ss : List Statement} {whole : List StatementResult → α}
    {broken : Nat → Statement → Failure → Failure} {x : Attempt StatementResult}
    {f : StatementResult → Attempt α}
    (hx : Unfolds x.run fun events r =>
      ∃ y, Carried e c s events y ∧ r = y.mapError (broken 0 s))
    (hf : ∀ r, Unfolds (f r).run
      (InTurn e c ss (fun rs => whole (r :: rs)) fun place => broken (place + 1))) :
    Unfolds (x >>= f).run (InTurn e c (s :: ss) whole broken) := by
  refine (Unfolds.andThen hx hf).mono ?_
  rintro events r (⟨_, rfl, y, hy, hr⟩ | ⟨m, a, n, rfl, ⟨y, hy, hr⟩, hrest⟩)
  · cases y with
    | ok _ => cases hr
    | error g =>
      cases hr
      exact .inr ⟨0, s, g, broke_here ss hy, rfl⟩
  · cases y with
    | error _ => cases hr
    | ok b =>
      cases hr
      rcases hrest with ⟨rs, hran, rfl⟩ | ⟨place, t, g, hbroke, rfl⟩
      · exact .inl ⟨_, .cons hy hran, rfl⟩
      · exact .inr ⟨place + 1, t, g, hbroke.later hy, rfl⟩

theorem inTurn_singleton {s : Statement} {whole : List StatementResult → α}
    {broken : Nat → Statement → Failure → Failure} {events : List Event} {r : Except Failure α}
    (h : InTurn e c [s] whole broken events r) :
    ∃ y, Carried e c s events y ∧ r = (y.map fun a => whole [a]).mapError (broken 0 s) := by
  rcases h with ⟨rs, hran, rfl⟩ | ⟨place, t, f, hbroke, rfl⟩
  · cases hran with
    | cons hs hrest =>
      cases hrest
      rw [List.append_nil]
      exact ⟨_, hs, rfl⟩
  · obtain ⟨front, rest, m, n, rs, hsplit, rfl, rfl, hfront, hlast⟩ := hbroke
    cases front with
    | nil =>
      cases hsplit
      cases hfront
      exact ⟨_, hlast, rfl⟩
    | cons u front => simp at hsplit

section Calls

/-! What holds of the calls that execute statements holds of the events of the statements. -/

variable {sort : Call → Prop} {ss : List Statement} {events : List Event}

private theorem forall_of_carried {s : Statement} {r : Except Failure StatementResult}
    (hsort : ∀ x, executionOf e.server.dialect c s = .ok x → sort x) (h : Carried e c s events r) :
    ∀ ev ∈ events, sort ev.call := by
  cases h with
  | unmet _ => simp
  | unwritten _ _ => simp
  | executed o _ hcall => exact List.forall_mem_singleton.mpr (hsort _ hcall)

theorem forall_of_ran {rs : List StatementResult}
    (hsort : ∀ s ∈ ss, ∀ x, executionOf e.server.dialect c s = .ok x → sort x)
    (h : Ran e c ss events rs) : ∀ ev ∈ events, sort ev.call := by
  induction h with
  | nil => simp
  | cons hs _ ih =>
    obtain ⟨hfirst, hrest⟩ := List.forall_mem_cons.mp hsort
    exact List.forall_mem_append.mpr ⟨forall_of_carried hfirst hs, ih hrest⟩

theorem forall_of_broke {place : Nat} {s : Statement} {f : Failure}
    (hsort : ∀ s ∈ ss, ∀ x, executionOf e.server.dialect c s = .ok x → sort x)
    (h : Broke e c ss events place s f) : ∀ ev ∈ events, sort ev.call := by
  obtain ⟨front, rest, m, n, rs, rfl, _, rfl, hran, hlast⟩ := h
  obtain ⟨hfront, hbehind⟩ := List.forall_mem_append.mp hsort
  have hs := (List.forall_mem_cons.mp hbehind).1
  exact List.forall_mem_append.mpr ⟨forall_of_ran hfront hran, forall_of_carried hs hlast⟩

end Calls

theorem unfolds_runStatements (ss : List Statement) (result : Result) :
    Unfolds (e.runStatements c result ss).run
      (InTurn e c ss (fun rs => rs.foldl Result.adding result) fun _ _ f => f) := by
  induction ss generalizing result with
  | nil => exact inTurn_nil fun rs => rs.foldl Result.adding result
  | cons s ss ih =>
    refine inTurn_cons ((unfolds_execute s).mono ?_) fun r => ih (result.adding r)
    intro events y hy
    refine ⟨y, hy, ?_⟩
    cases y <;> rfl

/-- A result with statements added to it as steps, the first of which has a number. -/
def withSteps (result : Result) : Nat → List Statement → List StatementResult → Result
  | number, s :: ss, r :: rs =>
    withSteps (result.addingStep number s.description r) (number + 1) ss rs
  | _, _, _ => result

/-- What the failure of a step of a transaction becomes: a fault with the step if the failure can be
told, and else what keeps it from being told. -/
def stepFailure (e : Engine) (number : Nat) (s : Statement) (f : Failure) : Failure :=
  match e.faultOf f with
  | .ok g => Failure.causedBy (stepFault number s.description g) f
  | .error g => g

theorem stepFailure_of_toFault {f : Failure} {g : Fault} (number : Nat) (s : Statement)
    (h : f.toFault (some e.settings) = .ok g) :
    stepFailure e number s f = Failure.causedBy (stepFault number s.description g) f := by
  rw [stepFailure, faultOf_ok h]

theorem stepFailure_of_not_tellable {f : Failure} (number : Nat) (s : Statement)
    (h : ¬ Tellable f) : ∃ o, IsObstacle o ∧ stepFailure e number s f = o.within (some f) := by
  obtain ⟨o, ho, hfault⟩ := faultOf_of_not_tellable (e := e) h
  exact ⟨o, ho, by rw [stepFailure, hfault]⟩

private theorem unfolds_runStep (request : Request) (number : Nat) (s : Statement) :
    Unfolds (e.runStep request c number s).run fun events r =>
      ∃ y, Carried e c s events y ∧ r = y.mapError (stepFailure e number s) := by
  refine Unfolds.afterSilent (gives_logFor _ _ _ _) ?_
  refine (Unfolds.andThen (q := fun outcome events r =>
    events = [] ∧ r = outcome.mapError (stepFailure e number s)) (unfolds_execute s).lift
    fun outcome => ?_).mono ?_
  · cases outcome with
    | ok r => exact unfolds_pure _
    | error f =>
      simp only [Except.mapError, stepFailure]
      cases e.faultOf f with
      | error g => exact unfolds_pure _
      | ok g => exact Unfolds.afterSilent (gives_logFor _ _ _ _) (unfolds_pure _)
  · rintro events r (⟨_, rfl, _, h, _⟩ | ⟨m, y, n, rfl, ⟨_, hy, hcarried⟩, rfl, rfl⟩)
    · cases h
    · cases hy
      exact ⟨y, by rwa [List.append_nil], rfl⟩

theorem unfolds_runSteps (request : Request) (ss : List Statement) (number : Nat)
    (result : Result) :
    Unfolds (e.runSteps request c result number ss).run
      (InTurn e c ss (withSteps result number ss) fun place => stepFailure e (number + place)) := by
  induction ss generalizing number result with
  | nil => exact inTurn_nil (withSteps result number [])
  | cons s ss ih =>
    refine inTurn_cons (unfolds_runStep request number s) fun r => ?_
    have hbroken : (fun place => stepFailure e (number + 1 + place)) =
        fun place => stepFailure e (number + (place + 1)) :=
      funext fun place => by rw [Nat.add_right_comm, Nat.add_assoc]
    have hrest := ih (number + 1) (result.addingStep number s.description r)
    rw [hbroken] at hrest
    exact hrest

end QueryGateway.Proofs.Engine.Courses
