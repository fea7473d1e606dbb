import QueryGateway.Proofs.Engine.Courses
import QueryGateway.Proofs.Retry.Tries

/-!
How attempts go. Each takes a connection of its own, works on it and gives it back; the attempts of
a plan follow one another as its policy says, and what the last of them came to is told.
-/

set_option autoImplicit false
set_option relaxedAutoImplicit false

namespace QueryGateway.Proofs.Engine.Attempts

open QueryGateway.Database
open QueryGateway.Engine
open QueryGateway.Number
open QueryGateway.Proofs.Database.Calls (course course_bind course_call outcome_of_hasText resultOf)
open QueryGateway.Proofs.Database.Events
open QueryGateway.Proofs.Engine.Courses
open QueryGateway.Proofs.Engine.Telling
open QueryGateway.Proofs.Failure.Texts
open QueryGateway.Proofs.Retry.Tries

variable {α : Type} {e : Engine} {c : Nat}

/-! ## Work on a connection -/

def Serves (c : Nat) : Call → Prop
  | .start d | .rollBack d | .execute d _ _ | .commit d => d = c
  | _ => False

/-- Events of work on a connection. -/
abbrev Serving (c : Nat) (events : List Event) : Prop := ∀ ev ∈ events, Serves c ev.call

theorem closed_serving (c : Nat) : Closed (Serving c) := closed_forall (Serves c)

private theorem serves_of_executionOf {d : Dialect} {s : Statement} {x : Call}
    (h : executionOf d c s = .ok x) : Serves c x := by
  obtain ⟨sql, params, rfl⟩ := exists_of_executionOf h
  rfl

private theorem serving_of_inTurn {ss : List Statement} {whole : List StatementResult → α}
    {broken : Nat → Statement → Failure → Failure} {events : List Event} {r : Except Failure α}
    (h : InTurn e c ss whole broken events r) : Serving c events := by
  have hss : ∀ s ∈ ss, ∀ x, executionOf e.server.dialect c s = .ok x → Serves c x :=
    fun _ _ _ => serves_of_executionOf
  rcases h with ⟨rs, hran, rfl⟩ | ⟨place, s, f, hbroke, rfl⟩
  · exact forall_of_ran hss hran
  · exact forall_of_broke hss hbroke

private theorem serving_of_transacted {rule : List Event → Except Failure α → Prop}
    {events : List Event} {r : Except Failure α} (hrule : ∀ {m q}, rule m q → Serving c m)
    (h : Transacted c rule events r) : Serving c events := by
  have hstart : ∀ o, Serving c [⟨.start c, o⟩] := fun o => List.forall_mem_singleton.mpr rfl
  cases h with
  | unstarted f => exact hstart _
  | rolledBack reply hm =>
    have hfront := (closed_serving c).append (hstart (.done reply)) (hrule hm)
    exact (closed_serving c).append hfront (List.forall_mem_singleton.mpr rfl)
  | closed reply o hm =>
    have hfront := (closed_serving c).append (hstart (.done reply)) (hrule hm)
    exact (closed_serving c).append hfront (List.forall_mem_singleton.mpr rfl)

abbrev Steps (e : Engine) (c : Nat) (plan : Plan) : List Event → Except Failure Result → Prop :=
  InTurn e c plan.statements (withSteps { kind := plan.kind } 1 plan.statements) fun place =>
    stepFailure e (1 + place)

private theorem unfolds_runTransaction (request : Request) (plan : Plan) :
    Unfolds (e.runTransaction request c plan).run (Transacted c (Steps e c plan)) := by
  have hsteps : Unfolds (e.runSteps request c { kind := plan.kind } 1 plan.statements).run
      (Steps e c plan) := unfolds_runSteps _ _ _ _
  have hrest := (unfolds_inTransaction c hsteps).thenSilent fun _ =>
    gives_logFor request .info "Transaction committed" []
  exact Unfolds.afterSilent (gives_logFor _ _ _ _) hrest

private theorem keeps_call {rule : List Event → Prop} (kind : CallKind) (x : Call)
    (hkind : kindOf x = some kind) (hcheckOut : kind ≠ .checkOut)
    (hafter : ∀ (p : Prospect) o, p.after ⟨x, o⟩ = { p with script := p.script.rest kind })
    (hrule : ∀ o, rule [⟨x, o⟩]) : Keeps rule (call kind x).run := by
  refine (unfolds_call kind x hkind hcheckOut hafter).mono ?_
  rintro events r ⟨o, rfl, rfl⟩
  exact hrule o

theorem keeps_execute (sql : String) (params : Option (List Value)) :
    Keeps (Serving c) (call .execute (.execute c sql params)).run :=
  keeps_call .execute _ rfl nofun (fun _ _ => rfl) fun _ => List.forall_mem_singleton.mpr rfl

theorem keeps_orFailure {rule : List Event → Prop} (hrule : Closed rule) (x : Except Failure α) :
    Keeps rule (orFailure x).run := by
  cases x with
  | error f => exact keeps_throw hrule f
  | ok a => exact keeps_ok hrule a

private theorem keeps_countRows (tables : List String) (sum : Value) :
    Keeps (Serving c) (countRows c sum tables).run := by
  have hclosed := closed_serving c
  induction tables generalizing sum with
  | nil => exact keeps_ok hclosed sum
  | cons table tables ih =>
    refine Keeps.andThen hclosed (keeps_execute _ _) fun reply => ?_
    refine Keeps.andThen hclosed (keeps_orFailure hclosed _) fun v => ?_
    exact Keeps.andThen hclosed (keeps_orFailure hclosed _) fun sum => ih sum

private theorem keeps_estimate (database : String) :
    Keeps (Serving c) (e.estimate c database).run := by
  have hclosed := closed_serving c
  refine Keeps.andThen hclosed (keeps_orFailure hclosed _) fun sql => ?_
  refine Keeps.andThen hclosed (keeps_execute _ _) fun reply => ?_
  refine Keeps.andThen hclosed (keeps_orFailure hclosed _) fun row => ?_
  refine Keeps.andThen hclosed (keeps_orFailure hclosed _) fun pair => ?_
  refine Keeps.andThen hclosed (keeps_orFailure hclosed _) fun tables => ?_
  exact Keeps.andThen hclosed (keeps_orFailure hclosed _) fun rows => keeps_ok hclosed _

private theorem keeps_stats : Keeps (Serving c) (e.stats c).run := by
  have hclosed := closed_serving c
  have hthrow : ∀ f (rest : PUnit → Attempt Fields),
      Keeps (Serving c) (throw f >>= rest : Attempt Fields).run := fun f _ => keeps_throw hclosed f
  simp only [stats]
  split
  · exact hthrow _ _
  · split
    · exact Keeps.andThen hclosed (keeps_estimate _) fun counts => keeps_ok hclosed _
    · refine Keeps.andThen hclosed ?_ fun counts => keeps_ok hclosed _
      refine Keeps.andThen hclosed (keeps_countRows _ _) fun sum => ?_
      exact Keeps.andThen hclosed (keeps_orFailure hclosed _) fun n => keeps_ok hclosed _

private theorem keeps_inspect (inquiry : Inquiry) :
    Keeps (Serving c) (e.inspect c inquiry).run := by
  have hclosed := closed_serving c
  unfold inspect
  split
  · exact keeps_ok hclosed _
  · exact keeps_orFailure hclosed _
  · exact keeps_orFailure hclosed _
  · exact keeps_ok hclosed _
  · exact keeps_stats
  · exact keeps_throw hclosed _

/-- How work goes that is committed behind it, without a transaction of its own. -/
inductive Committed (c : Nat) (rule : List Event → Except Failure α → Prop) :
    List Event → Except Failure α → Prop
  | failed {m : List Event} {f : Failure} : rule m (.error f) → Committed c rule m (.error f)
  | closed {m : List Event} {a : α} (o : Outcome) : rule m (.ok a) →
      Committed c rule (m ++ [⟨.commit c, o⟩]) ((resultOf o).map fun _ => a)

abbrev Statements (e : Engine) (c : Nat) (plan : Plan) :
    List Event → Except Failure Result → Prop :=
  InTurn e c plan.statements (fun rs => rs.foldl Result.adding { kind := plan.kind }) fun _ _ f => f

private theorem unfolds_runSingle (plan : Plan) :
    Unfolds (e.runSingle c plan).run (Committed c (Statements e c plan)) := by
  have hstatements : Unfolds (e.runStatements c { kind := plan.kind } plan.statements).run
      (Statements e c plan) := unfolds_runStatements _ _
  refine (Unfolds.andThen hstatements (unfolds_commit c)).mono ?_
  rintro events r (⟨f, rfl, hm⟩ | ⟨m, result, n, rfl, hm, o, rfl, rfl⟩)
  · exact .failed hm
  · exact .closed o hm

/-- How the work of a plan goes on its connection. -/
inductive Worked (e : Engine) (c : Nat) (plan : Plan) : List Event → Except Failure Result → Prop
  | inquired {events : List Event} {r : Except Failure Result} : plan.inquiry ≠ none →
      Serving c events → Worked e c plan events r
  | transacted {events : List Event} {r : Except Failure Result} : plan.inquiry = none →
      plan.transactional = true → Transacted c (Steps e c plan) events r → Worked e c plan events r
  | single {events : List Event} {r : Except Failure Result} : plan.inquiry = none →
      plan.transactional = false → Committed c (Statements e c plan) events r →
      Worked e c plan events r

private theorem unfolds_runOn (request : Request) (plan : Plan) :
    Unfolds (e.runOn request plan c).run (Worked e c plan) := by
  have hclosed := closed_serving c
  unfold runOn
  cases hinquiry : plan.inquiry with
  | some inquiry =>
    have hinspect : Keeps (Serving c) (do
        let info ← e.inspect c inquiry
        return { kind := plan.kind, info := info } : Attempt Result).run :=
      Keeps.andThen hclosed (keeps_inspect _) fun info => keeps_ok hclosed _
    exact hinspect.mono fun _ _ hevents => .inquired (by simp [hinquiry]) hevents
  | none =>
    cases htransactional : plan.transactional with
    | true => exact (unfolds_runTransaction request plan).mono fun _ _ =>
        .transacted hinquiry htransactional
    | false => exact (unfolds_runSingle plan).mono fun _ _ => .single hinquiry htransactional

theorem serving_of_worked {plan : Plan} {events : List Event} {r : Except Failure Result}
    (h : Worked e c plan events r) : Serving c events := by
  cases h with
  | inquired _ hevents => exact hevents
  | transacted _ _ h => exact serving_of_transacted serving_of_inTurn h
  | single _ _ h =>
    cases h with
    | failed hm => exact serving_of_inTurn hm
    | closed o hm =>
      have hcommit : Serving c [⟨.commit c, o⟩] := List.forall_mem_singleton.mpr rfl
      exact (closed_serving c).append (serving_of_inTurn hm) hcommit

/-! ## Connections -/

/-- Events by which a pool is made, if any. -/
def Pooling (events : List Event) : Prop :=
  ∀ ev ∈ events, ∃ url options, ev.call = .createPool url options

def keepPool (e : Engine) : Except Failure Reply → Attempt Unit
  | .error f => throw (Failure.causedBy (poolFault e.settings) f)
  | .ok _ => do
    modify fun s => { s with hasPool := true }
    log .info poolLogger "Created database engine"
      [("db.url", .text e.settings.maskedUrl),
       ("pool.size", .text (toString e.settings.connectionLimit))]

private theorem course_makePool {options : PoolOptions}
    (hoptions : poolOptions e.settings = .ok options)
    (s : Session) : course e.makePool.run s =
      match s.script.next .createPool with
      | .failed f => (.error (Failure.causedBy (poolFault e.settings) f),
          s.afterCall .createPool (.createPool e.settings.url options))
      | .done _ => (.ok (),
          { s.afterCall .createPool (.createPool e.settings.url options) with
            hasPool := true }.logging
              { level := .info, logger := poolLogger, message := "Created database engine"
                fields := [("db.url", .text e.settings.maskedUrl),
                  ("pool.size", .text (toString e.settings.connectionLimit))] }) := by
  have hrun : course e.makePool.run s =
      course ((call .createPool (.createPool e.settings.url options)).run >>= fun made =>
        (keepPool e made).run) s := by
    rw [makePool, hoptions]
    rfl
  rw [hrun, course_bind, course_call]
  cases s.script.next .createPool with
  | failed f => rfl
  | done reply => rfl

/-- What making a pool comes to, given the outcome of the one call that asks for it. -/
def poolMade (e : Engine) : Outcome → Except Failure Unit
  | .failed f => .error (Failure.causedBy (poolFault e.settings) f)
  | .done _ => .ok ()

theorem gives_makePool {options : PoolOptions} (hoptions : poolOptions e.settings = .ok options)
    (p : Prospect) : Gives e.makePool.run p
      [⟨.createPool e.settings.url options, p.script.next .createPool⟩]
      (poolMade e (p.script.next .createPool)) := by
  cases hnext : p.script.next .createPool with
  | failed f =>
    refine ⟨⟨⟨hnext.symm, nofun⟩, trivial⟩, ?_⟩
    rintro s rfl
    have hs : s.script.next .createPool = .failed f := hnext
    have hend := (prospect s).after_createPool_failed e.settings.url options f
    rw [course_makePool hoptions, hs]
    refine ⟨rfl, hend.symm, ?_⟩
    change ⟨_, (s.script.next .createPool).succeeded⟩ :: s.journal = _
    rw [hs]
    rfl
  | done reply =>
    refine ⟨⟨⟨hnext.symm, nofun⟩, trivial⟩, ?_⟩
    rintro s rfl
    have hs : s.script.next .createPool = .done reply := hnext
    have hend := (prospect s).after_createPool_done e.settings.url options reply
    rw [course_makePool hoptions, hs]
    refine ⟨rfl, hend.symm, ?_⟩
    change ⟨_, (s.script.next .createPool).succeeded⟩ :: s.journal = _
    rw [hs]
    rfl

private theorem keeps_makePool : Keeps Pooling e.makePool.run := by
  intro p
  cases hoptions : poolOptions e.settings with
  | error f =>
    have hrun : e.makePool = throw f := by
      rw [makePool, hoptions]
      rfl
    rw [hrun]
    exact ⟨[], _, gives_pure _ p, by simp [Pooling]⟩
  | ok options =>
    have hmade := gives_makePool hoptions p
    exact ⟨_, _, hmade, List.forall_mem_singleton.mpr ⟨_, _, rfl⟩⟩

private theorem course_ensurePool (s : Session) : course e.ensurePool.run s =
    if s.hasPool then (.ok (), s) else course e.makePool.run s := by
  change course (if s.hasPool then (pure () : Attempt Unit) else e.makePool).run s = _
  split <;> rfl

theorem gives_ensurePool_pooled {p : Prospect} (hpool : p.hasPool = true) :
    Gives e.ensurePool.run p [] (.ok ()) := by
  refine ⟨trivial, ?_⟩
  rintro s rfl
  have hs : s.hasPool = true := hpool
  rw [course_ensurePool, if_pos hs]
  exact ⟨rfl, rfl, rfl⟩

theorem gives_ensurePool_poolless {p : Prospect} {events : List Event} {r : Except Failure Unit}
    (hpool : p.hasPool = false) (h : Gives e.makePool.run p events r) :
    Gives e.ensurePool.run p events r := by
  refine ⟨h.allowed, ?_⟩
  rintro s rfl
  have hs : s.hasPool = false := hpool
  rw [course_ensurePool, hs, if_neg Bool.false_ne_true]
  exact h.course s rfl

theorem keeps_ensurePool : Keeps Pooling e.ensurePool.run := by
  intro p
  cases hpool : p.hasPool with
  | true => exact ⟨[], .ok (), gives_ensurePool_pooled hpool, by simp [Pooling]⟩
  | false =>
    obtain ⟨events, r, hgives, hevents⟩ := keeps_makePool (e := e) p
    exact ⟨events, r, gives_ensurePool_poolless hpool hgives, hevents⟩

/-- How a connection is taken: there is no pool, the pool gives none, or it gives one. -/
inductive Connects : List Event → Except Failure Nat → Prop
  | poolless {m : List Event} {f : Failure} : Pooling m → Connects m (.error f)
  | refused {m : List Event} (c : Nat) (f : Failure) : Pooling m →
      Connects (m ++ [⟨.checkOut c, .failed f⟩]) (.error f)
  | connected {m : List Event} (c : Nat) (reply : Reply) : Pooling m →
      Connects (m ++ [⟨.checkOut c, .done reply⟩]) (.ok c)

private theorem unfolds_checkOut : Unfolds checkOut.run fun events r => ∃ c o,
    events = [⟨.checkOut c, o⟩] ∧ r = (resultOf o).map fun _ => c :=
  fun p => ⟨_, _, gives_checkOut p, _, _, rfl, rfl⟩

theorem unfolds_connect : Unfolds e.connect.run Connects := by
  refine (Unfolds.andThen keeps_ensurePool fun _ => unfolds_checkOut).mono ?_
  rintro events r (⟨f, rfl, hm⟩ | ⟨m, _, n, rfl, hm, c, o, rfl, rfl⟩)
  · exact .poolless hm
  · cases o with
    | failed f => exact .refused c f hm
    | done reply => exact .connected c reply hm

/-- How work goes that has a connection of its own: there is none, or the work is done on it and the
connection given back. -/
inductive Held (rule : Nat → List Event → Except Failure α → Prop) :
    List Event → Except Failure α → Prop
  | unconnected {m : List Event} {f : Failure} : Connects m (.error f) → Held rule m (.error f)
  | connected {m n : List Event} {c : Nat} {r : Except Failure α} : Connects m (.ok c) →
      Released c (rule c) n r → Held rule (m ++ n) r

theorem unfolds_withConnection {work : Nat → Attempt α}
    {rule : Nat → List Event → Except Failure α → Prop}
    (hwork : ∀ c, Unfolds (work c).run (rule c)) :
    Unfolds (e.withConnection work).run (Held rule) := by
  refine (Unfolds.andThen unfolds_connect fun c => unfolds_thenReleasing c (hwork c)).mono ?_
  rintro events r (⟨f, rfl, hm⟩ | ⟨m, c, n, rfl, hm, hn⟩)
  · exact .unconnected hm
  · exact .connected hm hn

theorem forall_of_connects {sort : Call → Prop}
    (hpool : ∀ url options, sort (.createPool url options)) (hcheckOut : ∀ c, sort (.checkOut c))
    {m : List Event} {r : Except Failure Nat} (h : Connects m r) : ∀ ev ∈ m, sort ev.call := by
  have hpooling : ∀ {k : List Event}, Pooling k → ∀ ev ∈ k, sort ev.call := by
    intro k hk ev hev
    obtain ⟨url, options, hcall⟩ := hk ev hev
    rw [hcall]
    exact hpool url options
  cases h with
  | poolless hm => exact hpooling hm
  | refused c f hm =>
    exact List.forall_mem_append.mpr ⟨hpooling hm, List.forall_mem_singleton.mpr (hcheckOut c)⟩
  | connected c reply hm =>
    exact List.forall_mem_append.mpr ⟨hpooling hm, List.forall_mem_singleton.mpr (hcheckOut c)⟩

theorem forall_of_held (sort : Call → Prop) {rule : Nat → List Event → Except Failure α → Prop}
    (hpool : ∀ url options, sort (.createPool url options)) (hcheckOut : ∀ c, sort (.checkOut c))
    (hrelease : ∀ c, sort (.release c))
    (hrule : ∀ {c m q}, rule c m q → ∀ ev ∈ m, sort ev.call) {events : List Event}
    {r : Except Failure α} (h : Held rule events r) : ∀ ev ∈ events, sort ev.call := by
  cases h with
  | unconnected hm => exact forall_of_connects hpool hcheckOut hm
  | @connected m n c r hm hn =>
    obtain ⟨k, q, o, hk, rfl, rfl⟩ := hn
    have hlast : ∀ ev ∈ [(⟨.release c, o⟩ : Event)], sort ev.call :=
      List.forall_mem_singleton.mpr (hrelease c)
    have hend := List.forall_mem_append.mpr ⟨hrule hk, hlast⟩
    exact List.forall_mem_append.mpr ⟨forall_of_connects hpool hcheckOut hm, hend⟩

/-! ## Attempts of a plan -/

variable {plan : Plan}

theorem gives_attempt {request : Request} {p : Prospect} {events : List Event}
    {x : Except Failure Result}
    (h : Gives (e.withConnection (e.runOn request plan)).run p events x) :
    Gives (e.attempt request plan) p events (x.mapError e.told) := by
  rw [← List.append_nil events]
  exact Gives.bind h (gives_pure _ _)

theorem unfolds_attemptWork (e : Engine) (request : Request) (plan : Plan) :
    Unfolds (e.withConnection (e.runOn request plan)).run (Held fun c => Worked e c plan) :=
  unfolds_withConnection fun _ => unfolds_runOn _ _

/-- Whether an attempt that came to something may be followed by another. -/
def isPassing : Except Failure Result → Bool
  | .ok _ => false
  | .error f => f.isRetryable.toOption.getD false

/-- What is left of an attempt: its failure, or its result with its number if the rows that it
changed can be counted in the log. -/
def answered (number : Nat) (y : Except Failure Result) : Except Failure Result :=
  y.bind fun r => (Failure.written (Value.Display.text? (.int r.affectedRows))).map fun _ =>
    { r with attempts := number }

private theorem answered_error (number : Nat) (f : Failure) :
    answered number (.error f) = .error f := rfl

theorem answered_ok {number : Nat} {r : Result} (h : Numeral.isTooLong r.affectedRows = false) :
    answered number (.ok r) = .ok { r with attempts := number } := by
  rw [answered, Except.bind, written_int h]
  rfl

theorem answered_of_tooLong {number : Nat} {r : Result}
    (h : Numeral.isTooLong r.affectedRows = true) :
    answered number (.ok r) = .error .unwritable := by
  rw [answered, Except.bind, written_int_of_tooLong h]
  rfl

theorem answered_eq_ok {number : Nat} {y : Except Failure Result} {r : Result} :
    answered number y = .ok r ↔ ∃ r', y = .ok r' ∧ Numeral.isTooLong r'.affectedRows = false ∧
      r = { r' with attempts := number } := by
  cases y with
  | error f => simp [answered_error]
  | ok r' =>
    cases h : Numeral.isTooLong r'.affectedRows with
    | true =>
      rw [answered_of_tooLong h]
      refine iff_of_false nofun ?_
      rintro ⟨_, ⟨⟩, hshort, _⟩
      rw [h] at hshort
      cases hshort
    | false =>
      rw [answered_ok h]
      refine ⟨?_, ?_⟩
      · rintro ⟨⟩
        exact ⟨r', rfl, h, rfl⟩
      · rintro ⟨_, ⟨⟩, _, rfl⟩
        rfl

/-- The same for the loop of attempts, where a failure has the number too. -/
def numbered (number : Nat) : Except Failure Result → Except FailedAttempt Result
  | .ok r => .ok { r with attempts := number }
  | .error f => .error ⟨number, f⟩

private theorem gives_numberedAttempt {request : Request} {p : Prospect} {events : List Event}
    {y : Except Failure Result} (number : Nat) (h : Gives (e.attempt request plan) p events y) :
    Gives (e.numberedAttempt request plan number) p events (numbered number y) := by
  rw [← List.append_nil events]
  refine Gives.bind h ?_
  cases y with
  | ok r => exact gives_pure _ _
  | error f => exact gives_pure _ _

private theorem hasText_of_attempt {request : Request} {p : Prospect} {events : List Event}
    {y : Except Failure Result} (h : Gives (e.attempt request plan) p events y) :
    ∀ f, y = .error f → HasText f := by
  obtain ⟨s, hs⟩ := exists_prospect p
  have hy : (course (e.withConnection (e.runOn request plan)).run s).1.mapError e.told = y :=
    (h.course s hs).1
  intro f hf
  rw [hf] at hy
  generalize (course (e.withConnection (e.runOn request plan)).run s).1 = x at hy
  cases x with
  | ok r => cases hy
  | error g =>
    cases hy
    exact hasText_told e g

theorem gives_silent (request : Request) (level : Log.Level) (message : String) (fields : Fields)
    (p : Prospect) : Gives (ExceptT.lift (logFor request level message fields) : Attempt Unit).run p
      [] (.ok ()) :=
  (gives_logFor _ _ _ _ p).lift

private theorem gives_reportResult (request : Request) (r : Result) (p : Prospect) :
    Gives (e.reportResult request plan r).run p []
      ((Failure.written (Value.Display.text? (.int r.affectedRows))).map fun _ => ()) := by
  have hend : ∀ q, Gives (do
      let affected ← orFailure (Failure.written (Value.Display.text? (.int r.affectedRows)))
      logFor request .info "Plan executed" (e.planFields plan ++
        [("affected_rows", .text affected), ("row_count", .text (toString r.rows.length))]) :
      Attempt Unit).run q []
      ((Failure.written (Value.Display.text? (.int r.affectedRows))).map fun _ => ()) := by
    intro q
    cases Failure.written (Value.Display.text? (.int r.affectedRows)) with
    | error f => exact gives_pure _ _
    | ok affected => exact gives_silent _ _ _ _ q
  unfold reportResult
  simp only
  split
  · exact Gives.andThen (gives_silent _ _ _ _ p) (hend _)
  · exact hend p

private theorem gives_reportFailure (request : Request) (a : FailedAttempt) (p : Prospect) :
    Gives (e.reportFailure request plan a) p [] () := by
  unfold reportFailure
  split
  · exact gives_logFor _ _ _ _ p
  · exact gives_pure _ p

private theorem gives_runWithRetry {request : Request} {p : Prospect} {events : List Event}
    {number : Nat} {y : Except Failure Result}
    (h : Gives ((e.planRetry request plan).run (e.numberedAttempt request plan)) p events
      (numbered number y)) :
    Gives (e.runWithRetry request plan).run p events (answered number y) := by
  rw [← List.append_nil events]
  refine Gives.andThen h.lift ?_
  cases y with
  | error f => exact Gives.andThen (gives_reportFailure _ _ _).lift (gives_pure _ _)
  | ok r =>
    have hreport := @gives_reportResult e plan request { r with attempts := number }
      (p.through events)
    have hanswered : answered number (.ok r) =
        (Failure.written (Value.Display.text? (.int r.affectedRows))).map fun _ =>
          { r with attempts := number } := rfl
    rw [hanswered]
    simp only [numbered]
    cases hwritten : Failure.written (Value.Display.text? (.int r.affectedRows)) with
    | error f =>
      rw [hwritten] at hreport
      exact hreport.stop
    | ok s =>
      rw [hwritten] at hreport
      exact Gives.andThen hreport (gives_pure _ _)

private theorem outcome_answered {number : Nat} {y : Except Failure Result}
    (h : ∀ f, y = .error f → HasText f) :
    Telemetry.Span.outcome (answered number y) = answered number y := by
  refine outcome_of_hasText fun f hf => ?_
  cases y with
  | error g =>
    cases hf
    exact h _ rfl
  | ok r =>
    cases hlong : Numeral.isTooLong r.affectedRows with
    | true =>
      rw [answered_of_tooLong hlong] at hf
      cases hf
      exact IsObstacle.unwritable.hasText
    | false =>
      rw [answered_ok hlong] at hf
      cases hf

/-- A plan that does more than ask whether the database can be reached is carried out in attempts in
a row, and what the last of them came to is told with its number. -/
theorem gives_run {rule : Prospect → List Event → Except Failure Result → Prop}
    {request : Request} (hping : isPing plan = false)
    (hattempt : ∀ q, ∃ events y, Gives (e.attempt request plan) q events y ∧ rule q events y)
    (p : Prospect) :
    ∃ front t,
      Row rule isPassing e.settings.retryDelay 1 ((e.policyFor plan).attempts - 1) p
        (front ++ [t]) ∧
      Gives (e.run request plan).run p (inRow e.settings.retryDelay 1 (front ++ [t]))
        (answered (front ++ [t]).length t.outcome) := by
  have hnumbered : ∀ number q, ∃ events y,
      Gives (e.numberedAttempt request plan number) q events (numbered number y) ∧
        rule q events y ∧ ∀ f, y = .error f → HasText f := by
    intro number q
    obtain ⟨events, y, hgives, hrule⟩ := hattempt q
    exact ⟨events, y, gives_numberedAttempt number hgives, hrule, hasText_of_attempt hgives⟩
  have hagain : ∀ number y, isPassing y = true ↔ ∃ a, numbered number y = .error a ∧
      (e.planRetry request plan).admits a = true := by
    intro number y
    cases y with
    | ok r => exact ⟨nofun, nofun⟩
    | error f => exact ⟨fun h => ⟨_, rfl, h⟩, fun ⟨_, ha, h⟩ => by cases ha; exact h⟩
  obtain ⟨front, t, hrow, hloop⟩ := gives_runFrom (r := e.planRetry request plan) numbered
    (fun q events y => rule q events y ∧ ∀ f, y = .error f → HasText f) hnumbered hagain
    (fun _ _ => rfl) (fun _ _ _ p => gives_logFor _ _ _ _ p) rfl
    ((e.policyFor plan).attempts - 1) 1 p
  obtain ⟨_, -, htext⟩ := hrow.rule_of_mem t (by simp)
  refine ⟨front, t, hrow.imp And.left, ?_⟩
  have hlength : (front ++ [t]).length = 1 + front.length := by
    rw [List.length_append, List.length_singleton, Nat.add_comm]
  have hretry := (gives_runWithRetry hloop).inSpan
    (Telemetry.callSpan "sqlgate.engine.run_plan" [] (e.spanAttributes plan (some request)).entries)
  rw [outcome_answered htext] at hretry
  rw [hlength]
  simp only [Engine.run, hping]
  exact hretry

end QueryGateway.Proofs.Engine.Attempts
