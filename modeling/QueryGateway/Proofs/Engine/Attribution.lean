import QueryGateway.Engine.Run
import QueryGateway.Proofs.Database.Records
import QueryGateway.Proofs.Entries

/-!
What the records of the engine carry. Those about a request bring its number along, and those about
the pool have it from the scope they are written in; the name of a tool comes from the scope alone.
-/

set_option autoImplicit false
set_option relaxedAutoImplicit false

namespace QueryGateway.Proofs.Engine.Attribution

open QueryGateway.Database
open QueryGateway.Engine
open QueryGateway.Proofs.Database.Records
open QueryGateway.Proofs.Entries

variable {α : Type} {sort : Log.Record → Prop} {a : Log.Scope} {e : Engine} {c : Nat}

/-! ## Marks -/

/-- What a record is marked with: the number of a request and the name of a tool, or neither. -/
structure Carries (id tool : Option String) (r : Log.Record) : Prop where
  request : r.fields.get? "request_id" = some (.ofText? id)
  tool : r.fields.get? "tool_name" = some (.ofText? tool)

private theorem carries_stamp (a : Log.Scope) {r : Log.Record} {id : Option String}
    (h : r.ownRequest?.getD (.ofText? a.requestId) = .ofText? id) :
    Carries id a.toolName (r.stamp a) := by
  have hservice : ∀ fields : Fields, ∀ key, key ≠ "service" → key ≠ "service_version" →
      Fields.get? ((fields.put "service" (.text Log.Record.service)).put "service_version"
        (.text Log.Record.version)) key = fields.get? key := by
    intro fields key hservice hversion
    rw [get?_put_of_ne _ _ hversion, get?_put_of_ne _ _ hservice]
  refine ⟨?_, ?_⟩
  · refine (hservice _ _ (by decide) (by decide)).trans ?_
    rw [get?_put_of_ne _ _ (by decide), get?_put, h]
  · refine (hservice _ _ (by decide) (by decide)).trans ?_
    rw [get?_put]

theorem carries_of_ownless {r : Log.Record} (h : r.ownRequest? = none) :
    Carries a.requestId a.toolName (r.stamp a) :=
  carries_stamp a (by rw [h, Option.getD_none])

theorem carries_of_own {r : Log.Record} {id : String} (h : r.ownRequest? = some (.text id)) :
    Carries (some id) a.toolName (r.stamp a) :=
  carries_stamp a (by rw [h, Option.getD_some]; rfl)

/-- Fields that bring no number of a request along. -/
abbrev Plain (fields : Fields) : Prop := fields.has "request_id" = false

private theorem plain_append {m n : Fields} (hm : Plain m) (hn : Plain n) : Plain (m ++ n) := by
  rw [Plain, Fields.has, List.any_append, Bool.or_eq_false_iff]
  exact ⟨hm, hn⟩

theorem plain_telemetry (op : Operation) : Plain op.telemetry := by
  unfold Operation.telemetry
  cases op.target with
  | none => rfl
  | some t =>
    simp only
    split <;> rfl

theorem ownRequest?_telemetry (request : Request) {fields : Fields} (h : Plain fields)
    (level : Log.Level) (logger message : String) (failure : Option Failure) :
    Log.Record.ownRequest? ⟨level, logger, message, request.telemetry.update fields, failure⟩ =
      some (.text request.id) := by
  have hget : (request.telemetry.update fields).get? "request_id" = some (.text request.id) := by
    rw [get?_update_of_lacking h]
    rfl
  rw [Log.Record.ownRequest?, hget]

abbrev About (request : Request) (a : Log.Scope) : Log.Record → Prop :=
  Carries (some request.id) a.toolName

theorem writes_logAbout (request : Request) (level : Log.Level) (logger message : String)
    {fields : Fields} (h : Plain fields) : Writes (About request a) a a
      (log level logger message (request.telemetry.update fields)) :=
  writes_logging _ (carries_of_own (ownRequest?_telemetry request h _ _ _ _))

/-! ## Work that writes nothing -/

theorem writes_orFailure (x : Except Failure α) : Writes sort a a (orFailure x).run := by
  cases x with
  | error f => exact writes_throw f
  | ok y => exact writes_ok y

private theorem writes_probe (c : Nat) : Writes sort a a (probe c).run :=
  Writes.andThen (writes_call _ _) fun _ => writes_ok ()

private theorem writes_execute (s : Statement) : Writes sort a a (e.execute c s).run := by
  refine Writes.andThen (writes_orFailure _) fun _ => ?_
  split
  · exact Writes.andThen (writes_call _ _) fun reply => writes_orFailure _
  · refine Writes.andThen (writes_orFailure _) fun sql => ?_
    exact Writes.andThen (writes_call _ _) fun reply => writes_orFailure _

private theorem writes_runStatements (ss : List Statement) (result : Result) :
    Writes sort a a (e.runStatements c result ss).run := by
  induction ss generalizing result with
  | nil => exact writes_ok result
  | cons s ss ih => exact Writes.andThen (writes_execute s) fun outcome => ih _

private theorem writes_runSingle (plan : Plan) : Writes sort a a (e.runSingle c plan).run := by
  refine Writes.andThen (writes_runStatements _ _) fun result => ?_
  exact Writes.andThen (writes_call _ _) fun _ => writes_ok result

private theorem writes_countRows (tables : List String) (sum : Value) :
    Writes sort a a (countRows c sum tables).run := by
  induction tables generalizing sum with
  | nil => exact writes_ok sum
  | cons table tables ih =>
    refine Writes.andThen (writes_call _ _) fun reply => ?_
    refine Writes.andThen (writes_orFailure _) fun v => ?_
    exact Writes.andThen (writes_orFailure _) fun sum => ih sum

private theorem writes_estimate (database : String) :
    Writes sort a a (e.estimate c database).run := by
  refine Writes.andThen (writes_orFailure _) fun sql => ?_
  refine Writes.andThen (writes_call _ _) fun reply => ?_
  refine Writes.andThen (writes_orFailure _) fun row => ?_
  refine Writes.andThen (writes_orFailure _) fun pair => ?_
  refine Writes.andThen (writes_orFailure _) fun tables => ?_
  exact Writes.andThen (writes_orFailure _) fun rows => writes_ok _

private theorem writes_stats : Writes sort a a (e.stats c).run := by
  have hcountAll : Writes sort a a (e.countAll c).run := by
    refine Writes.andThen (writes_countRows _ _) fun sum => ?_
    exact Writes.andThen (writes_orFailure _) fun n => writes_ok _
  simp only [stats]
  split
  · exact writes_throw _
  · split
    · exact Writes.andThen (writes_estimate _) fun counts => writes_ok _
    · exact Writes.andThen hcountAll fun counts => writes_ok _

private theorem writes_inspect (inquiry : Inquiry) : Writes sort a a (e.inspect c inquiry).run := by
  cases inquiry with
  | tables => exact writes_ok _
  | columns table => exact writes_orFailure _
  | utility action table =>
    cases action with
    | ping => exact writes_throw _
    | describeTable =>
      cases table with
      | none => exact writes_throw _
      | some table => exact writes_orFailure _
    | version => exact writes_ok _
    | stats => exact writes_stats

/-! ## Work within the scope of a request -/

section Requests

variable {request : Request} (ha : a.requestId = some request.id)

private theorem writes_logFor (level : Log.Level) (message : String) {fields : Fields}
    (h : Plain fields) :
    Writes (About request a) a a
      (Engine.logFor request level message fields) :=
  writes_logAbout request level _ message h

private theorem writes_runStep (number : Nat) (s : Statement) :
    Writes (About request a) a a (e.runStep request c number s).run := by
  refine Writes.andThen (writes_logFor _ _ rfl).lift fun _ => ?_
  refine Writes.andThen (writes_execute s).lift fun outcome => ?_
  cases outcome with
  | ok r => exact writes_ok r
  | error f =>
    refine Writes.andThen (writes_orFailure _) fun g => ?_
    exact Writes.andThen (writes_logFor _ _ rfl).lift fun _ => writes_throw _

private theorem writes_runSteps (ss : List Statement) (number : Nat) (result : Result) :
    Writes (About request a) a a
      (e.runSteps request c result number ss).run := by
  induction ss generalizing number result with
  | nil => exact writes_ok result
  | cons s ss ih => exact Writes.andThen (writes_runStep number s) fun outcome => ih _ _

private theorem writes_runTransaction (plan : Plan) :
    Writes (About request a) a a (e.runTransaction request c plan).run := by
  refine Writes.andThen (writes_logFor _ _ rfl).lift fun _ => ?_
  refine Writes.andThen (Writes.inTransaction c (writes_runSteps _ _ _)) fun result => ?_
  exact Writes.andThen (writes_logFor _ _ rfl).lift fun _ => writes_ok result

theorem writes_prepare (op : Operation) :
    Writes (About request a) a a (prepare request op).run := by
  unfold prepare
  cases Plan.ofOperation op with
  | error f =>
    simp only
    cases f.fault? with
    | some g => exact Writes.andThen (writes_logAbout request _ _ _ rfl).lift fun _ => writes_throw _
    | none => exact writes_throw f
  | ok plan =>
    exact Writes.andThen (writes_logAbout request _ _ _ rfl).lift fun _ => writes_ok plan

include ha

/-- The pool is not made for a request, but its records are written in the scope of one. -/
private theorem writes_makePool : Writes (About request a) a a e.makePool.run := by
  have hlog : ∀ level message url size, Writes (About request a) a a
      (log level poolLogger message [("db.url", .text url), ("pool.size", .text size)]) := by
    intro level message url size
    rw [About, ← ha]
    exact writes_logging _ (carries_of_ownless rfl)
  have hmade : Writes (About request a) a a
      (modify fun s => { s with hasPool := true } : Run PUnit) :=
    writes_of_frame (fun _ => rfl) fun _ => rfl
  refine Writes.andThen (writes_orFailure (poolOptions e.settings)) fun options => ?_
  refine Writes.andThen (writes_call _ _).lift fun made => ?_
  cases made with
  | error f => exact writes_throw _
  | ok reply => exact Writes.andThen hmade.lift fun _ => (hlog _ _ _ _).lift

private theorem writes_withConnection {work : Nat → Attempt α}
    (hwork : ∀ c, Writes (About request a) a a (work c).run) :
    Writes (About request a) a a (e.withConnection work).run := by
  have hpool : Writes (About request a) a a e.ensurePool.run := by
    refine writes_lookAt fun s => ?_
    cases s.hasPool with
    | true => exact writes_ok ()
    | false => exact writes_makePool ha
  have hconnect : Writes (About request a) a a e.connect.run :=
    Writes.andThen hpool fun _ => writes_checkOut
  exact Writes.andThen hconnect fun c => Writes.thenReleasing c (hwork c)

private theorem writes_numberedAttempt (plan : Plan) (number : Nat) :
    Writes (About request a) a a (e.numberedAttempt request plan number) := by
  have hrunOn : ∀ c, Writes (About request a) a a
      (e.runOn request plan c).run := by
    intro c
    unfold runOn
    split
    · exact Writes.andThen (writes_inspect _) fun info => writes_ok _
    · split
      · exact writes_runTransaction plan
      · exact writes_runSingle plan
  have hattempt : Writes (About request a) a a (e.attempt request plan) :=
    Writes.bind (writes_withConnection ha hrunOn) fun outcome => writes_pure _
  refine Writes.bind hattempt fun outcome => ?_
  cases outcome <;> exact writes_pure _

private theorem writes_runWithRetry (plan : Plan) :
    Writes (About request a) a a (e.runWithRetry request plan).run := by
  have hloop : Writes (About request a) a a
      ((e.planRetry request plan).run (e.numberedAttempt request plan)) :=
    writes_runFrom (fun _ _ _ => writes_logFor _ _ rfl) (fun _ => writes_note _)
      (writes_numberedAttempt ha plan) _ _
  refine Writes.andThen hloop.lift fun outcome => ?_
  cases outcome with
  | error f =>
    refine Writes.andThen (Writes.lift ?_) fun _ => writes_throw _
    unfold reportFailure
    split
    · exact writes_logFor _ _ (plain_append rfl rfl)
    · exact writes_pure ()
  | ok result =>
    refine Writes.andThen ?_ fun _ => writes_ok result
    have hlast : Writes (About request a) a a (do
        let affected ← orFailure (Failure.written (Value.Display.text? (.int result.affectedRows)))
        logFor request .info "Plan executed"
          (e.planFields plan ++ [("affected_rows", .text affected),
            ("row_count", .text (toString result.rows.length))]) : Attempt Unit).run :=
      Writes.andThen (writes_orFailure _) fun _ => (writes_logFor _ _ rfl).lift
    unfold reportResult
    split
    · exact Writes.andThen (writes_logFor _ _ rfl).lift fun _ => hlast
    · exact hlast

private theorem writes_testConnection :
    Writes (About request a) a a (e.testConnection request).run := by
  have hwarning : ∀ number delay f,
      Writes (About request a) a a (e.testWarning request number delay f).run := fun _ _ _ =>
    Writes.andThen (writes_orFailure _) fun _ => (writes_logFor _ _ rfl).lift
  have htests : Writes (About request a) a a (e.runTests request).run :=
    Writes.andThen (writes_runFrom_attempt hwarning (fun _ => (writes_note _).lift)
      (fun _ => (writes_withConnection ha writes_probe).lift) _ _) fun last => writes_orFailure last
  refine Writes.andThen htests.lift fun outcome => ?_
  cases outcome with
  | ok _ => exact writes_ok true
  | error f =>
    refine Writes.andThen (writes_orFailure _) fun message => ?_
    exact Writes.andThen (writes_logFor _ _ rfl).lift fun _ => writes_ok false

theorem writes_run (plan : Plan) :
    Writes (About request a) a a (e.run request plan).run := by
  refine Writes.inSpan _ ?_
  split
  · exact Writes.andThen (writes_testConnection ha) fun _ => writes_ok _
  · exact writes_runWithRetry ha plan

end Requests

end QueryGateway.Proofs.Engine.Attribution
