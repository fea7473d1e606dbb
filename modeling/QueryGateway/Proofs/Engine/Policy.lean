import QueryGateway.Proofs.Engine.Attempts
import QueryGateway.Proofs.Engine.Commits
import QueryGateway.Proofs.Engine.Results
import QueryGateway.Proofs.Settings.Bounds

/-!
How plans are attempted again. There are as many attempts as it takes and are allowed, with a wait
that grows in front of each further one; what is returned or raised is what the last of them came
to, and nothing of the others is left in it.
-/

set_option autoImplicit false
set_option relaxedAutoImplicit false

namespace QueryGateway.Proofs.Engine.Policy

open QueryGateway.Database
open QueryGateway.Engine
open QueryGateway.Number (Numeral.isTooLong)
open QueryGateway.Settings (DatabaseSettings Source)
open QueryGateway.Proofs.Database.Calls (course resultOf)
open QueryGateway.Proofs.Database.Events
open QueryGateway.Proofs.Engine.Attempts
open QueryGateway.Proofs.Engine.Commits (adding losing plainEngine unsent)
open QueryGateway.Proofs.Engine.Courses
open QueryGateway.Proofs.Engine.Results
open QueryGateway.Proofs.Engine.Telling
open QueryGateway.Proofs.Failure.Texts (exists_error_of_not_ok)
open QueryGateway.Proofs.Failure.Translation
open QueryGateway.Proofs.Retry.Tries
open QueryGateway.Proofs.Settings.Bounds

variable {e : Engine} {plan : Plan}

def isCheckOut (ev : Event) : Bool :=
  match ev.call with
  | .checkOut _ => true
  | _ => false

/-- What there is to one attempt. It goes the way it would go as the only one, asks for a connection
once at most and never waits. Where something went wrong in it, it fails with the fault that tells
so, and with no fault if there is none. Its result is put together from what the statements gave
that were executed in it. -/
structure Attempted (e : Engine) (request : Request) (plan : Plan) (p : Prospect)
    (events : List Event) (y : Except Failure Result) : Prop where
  course : Gives (e.attempt request plan) p events y
  checkOuts : events.countP isCheckOut ≤ 1
  awake : ∀ ev ∈ events, ∀ delay, ev.call ≠ .sleep delay
  failure : ∀ f, y = .error f → ∃ g,
    Gives (e.withConnection (e.runOn request plan)).run p events (.error g) ∧
      ∀ fault, f.fault? = some fault ↔ g.toFault (some e.settings) = .ok fault
  result : ∀ r, y = .ok r → plan.inquiry = none → ∃ c m rs, m <:+: events ∧
    Ran e c plan.statements m rs ∧ r = resultFrom plan rs

/-- An attempt that leaves something to tell: what went wrong in it can be told, or the rows of its
result can be counted. -/
structure Answerable (e : Engine) (request : Request) (plan : Plan) (p : Prospect)
    (events : List Event) (y : Except Failure Result) : Prop where
  failure : ∀ g, Gives (e.withConnection (e.runOn request plan)).run p events (.error g) →
    Tellable g
  result : ∀ r, y = .ok r → Numeral.isTooLong r.affectedRows = false

/-! ## One attempt -/

private theorem countP_of_forall {events : List Event}
    (h : ∀ ev ∈ events, ∀ c, ev.call ≠ .checkOut c) : events.countP isCheckOut = 0 := by
  refine List.countP_eq_zero.mpr fun ev hev hcheckOut => ?_
  unfold isCheckOut at hcheckOut
  split at hcheckOut
  · rename_i c hcall
    exact h ev hev c hcall
  · cases hcheckOut

theorem countP_of_pooling {m : List Event} (h : Pooling m) : m.countP isCheckOut = 0 := by
  refine countP_of_forall fun ev hev c hc => ?_
  obtain ⟨url, options, hcall⟩ := h ev hev
  rw [hcall] at hc
  cases hc

private theorem countP_of_connects {m : List Event} {r : Except Failure Nat} (h : Connects m r) :
    m.countP isCheckOut ≤ 1 := by
  cases h with
  | poolless hm => exact (countP_of_pooling hm).trans_le (Nat.zero_le 1)
  | refused c f hm => simp [countP_of_pooling hm, isCheckOut]
  | connected c reply hm => simp [countP_of_pooling hm, isCheckOut]

private theorem countP_of_serving {c : Nat} {m : List Event} (h : Serving c m) :
    m.countP isCheckOut = 0 := by
  refine countP_of_forall fun ev hev d hcall => ?_
  have hserves := h ev hev
  rw [hcall] at hserves
  exact hserves

private theorem checkOuts_of_held {events : List Event} {x : Except Failure Result}
    (h : Held (fun c => Worked e c plan) events x) : events.countP isCheckOut ≤ 1 := by
  cases h with
  | unconnected hm => exact countP_of_connects hm
  | connected hm hn =>
    obtain ⟨k, q, o, hwork, rfl, rfl⟩ := hn
    have hfront := countP_of_connects hm
    have hk := countP_of_serving (serving_of_worked hwork)
    simpa [hk, isCheckOut] using hfront

theorem awake_of_held {events : List Event} {x : Except Failure Result}
    (h : Held (fun c => Worked e c plan) events x) :
    ∀ ev ∈ events, ∀ delay, ev.call ≠ .sleep delay := by
  have hserving : ∀ {c m q}, Worked e c plan m q →
      ∀ ev ∈ m, ∀ delay, ev.call ≠ .sleep delay := by
    intro c m q hwork ev hev delay hcall
    have hserves := serving_of_worked hwork ev hev
    rw [hcall] at hserves
    exact hserves
  exact forall_of_held (fun call => ∀ delay, call ≠ .sleep delay) (fun _ _ _ h => nomatch h)
    (fun _ _ h => nomatch h) (fun _ _ h => nomatch h) hserving h

private theorem ok_of_map {o : Outcome} {a r : Result}
    (h : ((resultOf o).map fun _ => a) = .ok r) : r = a := by
  cases o with
  | failed f => cases h
  | done reply =>
    cases h
    rfl

private theorem ran_of_worked {c : Nat} {events : List Event} {r : Result}
    (hinquiry : plan.inquiry = none) (h : Worked e c plan events (.ok r)) :
    ∃ front m back rs, events = front ++ (m ++ back) ∧
      (∀ ev ∈ back, kindOf ev.call ≠ some .execute) ∧ Ran e c plan.statements m rs ∧
      r = resultFrom plan rs := by
  generalize hx : (Except.ok r : Except Failure Result) = x at h
  cases h with
  | inquired hsome _ => exact absurd hinquiry hsome
  | transacted _ htransactional h =>
    cases h with
    | unstarted f => cases hx
    | rolledBack reply hm => cases hx
    | @closed m a reply o hm =>
      rcases hm with ⟨rs, hran, ha⟩ | ⟨_, _, _, _, h⟩
      · cases ha
        refine ⟨[⟨.start c, .done reply⟩], m, [⟨.commit c, o⟩], rs, rfl,
          List.forall_mem_singleton.mpr nofun, hran, ?_⟩
        rw [ok_of_map hx.symm, withSteps_eq_resultFrom hran.length_eq htransactional]
      · cases h
  | single _ hsingle h =>
    cases h with
    | failed hm => cases hx
    | @closed m a o hm =>
      rcases hm with ⟨rs, hran, ha⟩ | ⟨_, _, _, _, h⟩
      · cases ha
        refine ⟨[], m, [⟨.commit c, o⟩], rs, rfl, List.forall_mem_singleton.mpr nofun, hran, ?_⟩
        exact (ok_of_map hx.symm).trans (foldl_eq_resultFrom rs hsingle)
      · cases h

theorem ran_of_held {events : List Event} {r : Result} (hinquiry : plan.inquiry = none)
    (h : Held (fun c => Worked e c plan) events (.ok r)) :
    ∃ c front m back rs, events = front ++ (m ++ back) ∧
      (∀ ev ∈ back, kindOf ev.call ≠ some .execute) ∧ Ran e c plan.statements m rs ∧
      r = resultFrom plan rs := by
  generalize hx : (Except.ok r : Except Failure Result) = x at h
  cases h with
  | unconnected hm => cases hx
  | @connected connecting n c x hm hn =>
    obtain ⟨k, q, o, hwork, rfl, rfl⟩ := hn
    cases o with
    | failed f => cases hx
    | done reply =>
      cases hx
      obtain ⟨front, m, back, rs, rfl, hback, hran, hr⟩ := ran_of_worked hinquiry hwork
      refine ⟨c, connecting ++ front, m, back ++ [⟨.release c, .done reply⟩], rs, by simp, ?_, hran,
        hr⟩
      exact List.forall_mem_append.mpr ⟨hback, List.forall_mem_singleton.mpr nofun⟩

private theorem fault?_told_eq_some (e : Engine) (f : Failure) (fault : Fault) :
    (e.told f).fault? = some fault ↔ f.toFault (some e.settings) = .ok fault := by
  refine ⟨fun h => ?_, fault?_told⟩
  obtain ⟨g, hg⟩ :=
    (toFault_ok_iff (some e.settings)).mpr (fault?_told_iff.mp ⟨fault, h⟩)
  rw [fault?_told hg] at h
  cases h
  exact hg

private theorem exists_attempted (e : Engine) (request : Request) (plan : Plan) (p : Prospect) :
    ∃ events y, Gives (e.attempt request plan) p events y ∧
      Attempted e request plan p events y := by
  obtain ⟨events, x, hwork, hheld⟩ := unfolds_attemptWork e request plan p
  have hgives := gives_attempt hwork
  refine ⟨events, x.mapError e.told, hgives, hgives, checkOuts_of_held hheld, awake_of_held hheld,
    ?_, ?_⟩
  · intro f hf
    cases x with
    | ok r => cases hf
    | error g =>
      cases hf
      exact ⟨g, hwork, fault?_told_eq_some e g⟩
  · intro r hr hinquiry
    cases x with
    | error g => cases hr
    | ok r' =>
      cases hr
      obtain ⟨c, front, m, back, rs, hcut, _, hran, hresult⟩ := ran_of_held hinquiry hheld
      exact ⟨c, m, rs, ⟨front, back, by rw [hcut, List.append_assoc]⟩, hran, hresult⟩

/-! ## All attempts -/

private theorem attempts_policyFor (plan : Plan) {source : Source}
    (hsettings : (DatabaseSettings.ofSource source).value? = some e.settings) :
    ((e.policyFor plan).attempts : Int) = if plan.retryable then e.settings.maxRetries else 1 := by
  have hbounds := (inBounds_ofSource hsettings).maxRetries
  simp only [RetryPolicy.attempts, policyFor]
  split <;> omega

private theorem gives_unique {α : Type} {work : Run α} {p : Prospect} {events events' : List Event}
    {a b : α}
    (ha : Gives work p events a) (hb : Gives work p events' b) : a = b := by
  obtain ⟨s, hs⟩ := exists_prospect p
  exact (ha.course s hs).1.symm.trans (hb.course s hs).1

private theorem faults_iff_answerable {request : Request} {p : Prospect} {events : List Event}
    {y : Except Failure Result} (h : Attempted e request plan p events y) (number : Nat) :
    (∀ f, answered number y = .error f → ∃ fault, f.fault? = some fault) ↔
      Answerable e request plan p events y := by
  cases y with
  | error f =>
    obtain ⟨g, hgives, hfault⟩ := h.failure f rfl
    have htellable : (∃ fault, f.fault? = some fault) ↔ Tellable g := by
      rw [← toFault_ok_iff (some e.settings)]
      exact exists_congr hfault
    constructor
    · intro hall
      refine ⟨fun g' hg' => ?_, nofun⟩
      cases gives_unique hg' hgives
      exact htellable.mp (hall f rfl)
    · rintro hall f' ⟨⟩
      exact htellable.mpr (hall.failure g hgives)
  | ok r =>
    have hnone : ∀ g,
        ¬ Gives (e.withConnection (e.runOn request plan)).run p events (.error g) := by
      intro g hg
      cases gives_unique (gives_attempt hg) h.course
    constructor
    · intro hall
      refine ⟨fun g hg => absurd hg (hnone g), ?_⟩
      rintro _ ⟨⟩
      cases hlong : Numeral.isTooLong r.affectedRows with
      | false => rfl
      | true =>
        obtain ⟨fault, hfault⟩ := hall _ (answered_of_tooLong hlong)
        cases hfault
    · intro hall f hf
      rw [answered_ok (hall.result r rfl)] at hf
      cases hf

/-- A plan is attempted as its policy says. The attempts are as many as it takes until one succeeds,
fails for good or is the last that is allowed; each is carried out where the one before it and the
wait after that have led, and what the last of them came to is returned or raised. That is a result
or a fault just where the last attempt leaves something to tell. -/
theorem run_follows_policy (e : Engine) (plan : Plan) (request : Request) {source : Source}
    (hsettings : (DatabaseSettings.ofSource source).value? = some e.settings)
    (hping : isPing plan = false) (s : Session) :
    ∃ (most : Nat) (front : List (Try (Except Failure Result))) (t : Try (Except Failure Result)),
      (most : Int) = (if plan.retryable then e.settings.maxRetries else 1) ∧
      Row (Attempted e request plan) isPassing e.settings.retryDelay 1 (most - 1) (prospect s)
        (front ++ [t]) ∧
      IsLeast {k | Ends isPassing most (front ++ [t]) k} (front ++ [t]).length ∧
      (course (e.run request plan).run s).2.journal =
        (entries (inRow e.settings.retryDelay 1 (front ++ [t]))).reverse ++ s.journal ∧
      (course (e.run request plan).run s).1 = answered (front ++ [t]).length t.outcome ∧
      ∃ q, Attempted e request plan q t.events t.outcome ∧
        ((∀ f, (course (e.run request plan).run s).1 = .error f → ∃ fault, f.fault? = some fault) ↔
          Answerable e request plan q t.events t.outcome) := by
  have hattempts := attempts_policyFor plan hsettings
  obtain ⟨front, t, hrow, hrun⟩ :=
    gives_run hping (exists_attempted e request plan) (prospect s)
  obtain ⟨hresult, _, hjournal⟩ := hrun.course s rfl
  have hone : 1 ≤ (e.policyFor plan).attempts := by
    rw [RetryPolicy.attempts]
    omega
  have hleast := hrow.isLeast
  rw [Nat.sub_add_cancel hone] at hleast
  obtain ⟨before, ht⟩ := hrow.rule_of_mem t (by simp)
  refine ⟨_, front, t, hattempts, hrow, hleast, hjournal, hresult, _, ht, ?_⟩
  rw [hresult]
  exact faults_iff_answerable ht _

theorem run_follows_policy_losing :
    (DatabaseSettings.ofSource ⟨[], [], "sqlgate_db_"⟩).value? = some plainEngine.settings ∧
      isPing adding = false ∧
      ∃ (most : Nat) (front : List (Try (Except Failure Result))) (t : Try (Except Failure Result)),
        (most : Int) = (if adding.retryable then plainEngine.settings.maxRetries else 1) ∧
        Row (Attempted plainEngine ⟨"r", none, []⟩ adding) isPassing
          plainEngine.settings.retryDelay 1 (most - 1) (prospect losing) (front ++ [t]) ∧
        IsLeast {k | Ends isPassing most (front ++ [t]) k} (front ++ [t]).length ∧
        (course (plainEngine.run ⟨"r", none, []⟩ adding).run losing).2.journal =
          (entries (inRow plainEngine.settings.retryDelay 1 (front ++ [t]))).reverse ++
            losing.journal ∧
        (course (plainEngine.run ⟨"r", none, []⟩ adding).run losing).1 =
          answered (front ++ [t]).length t.outcome ∧
        ∃ q, Attempted plainEngine ⟨"r", none, []⟩ adding q t.events t.outcome ∧
          ((∀ f, (course (plainEngine.run ⟨"r", none, []⟩ adding).run losing).1 = .error f →
              ∃ fault, f.fault? = some fault) ↔
            Answerable plainEngine ⟨"r", none, []⟩ adding q t.events t.outcome) :=
  have hsettings : (DatabaseSettings.ofSource ⟨[], [], "sqlgate_db_"⟩).value? =
      some plainEngine.settings := by decide +kernel
  ⟨hsettings, rfl,
    run_follows_policy plainEngine adding ⟨"r", none, []⟩ hsettings rfl losing⟩

/-- What keeps a failure from being told leaves the run as it is, and that is no fault. -/
theorem not_fault_unsent :
    (DatabaseSettings.ofSource ⟨[], [], "sqlgate_db_"⟩).value? = some plainEngine.settings ∧
      isPing adding = false ∧
      ∃ f, (course (plainEngine.run ⟨"r", none, []⟩ adding).run unsent).1 = .error f ∧
        f.fault? = none := by
  have hsettings : (DatabaseSettings.ofSource ⟨[], [], "sqlgate_db_"⟩).value? =
      some plainEngine.settings := by decide +kernel
  obtain ⟨f, hf, hfault⟩ := exists_error_of_not_ok
    (r := (course (plainEngine.run ⟨"r", none, []⟩ adding).run unsent).1) (by decide +kernel)
  refine ⟨hsettings, rfl, f, hf, hfault.trans (Option.isNone_iff_eq_none.mp ?_)⟩
  decide +kernel

end QueryGateway.Proofs.Engine.Policy
