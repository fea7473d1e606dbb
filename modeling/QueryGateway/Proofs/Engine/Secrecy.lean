import QueryGateway.Proofs.Database.Agreement
import QueryGateway.Proofs.Engine.Commits
import QueryGateway.Proofs.Tool.Selections
import QueryGateway.Tool.Dispatcher

/-!
The password is shown to nobody but the driver. Two gateways that differ in a password that is not
empty answer everything alike, log the same and make the same calls, apart from the URL by which
the pool of connections is made.
-/

set_option autoImplicit false
set_option relaxedAutoImplicit false

namespace QueryGateway.Proofs.Engine.Secrecy

open QueryGateway.Database
open QueryGateway.Engine
open QueryGateway.Settings (DatabaseSettings)
open QueryGateway.Proofs.Database.Agreement
open QueryGateway.Proofs.Database.Calls (course course_bind)
open QueryGateway.Proofs.Engine.Commits (plainEngine)
open QueryGateway.Proofs.Tool.Selections (course_ofSelection)

variable {α : Type} {e : Engine} {password : String} {c : Nat}

def rekeyed (e : Engine) (password : String) : Engine :=
  { e with settings := { e.settings with password := password } }

/-! ## What depends on settings -/

/-- The masked URL shows whether there is a password, but not which one. -/
private theorem maskedUrl_rekeyed (hkey : e.settings.password ≠ "") (hpassword : password ≠ "") :
    (rekeyed e password).settings.maskedUrl = e.settings.maskedUrl := by
  have hempty : ∀ s : String, s ≠ "" → s.isEmpty = false := fun s hs => by simpa using hs
  simp only [DatabaseSettings.maskedUrl, DatabaseSettings.urlWith, rekeyed,
    hempty _ hkey, hempty _ hpassword]
  rfl

private theorem toFault_rekeyed (f : Failure) :
    f.toFault (some (rekeyed e password).settings) = f.toFault (some e.settings) := by
  have hwording : ∀ message s, Failure.wording (some (rekeyed e password).settings) message s =
      Failure.wording (some e.settings) message s := by
    intro message s
    cases s <;> rfl
  simp only [Failure.toFault, hwording]

private theorem faultOf_rekeyed (f : Failure) : (rekeyed e password).faultOf f = e.faultOf f := by
  rw [faultOf, faultOf, toFault_rekeyed]

private theorem told_rekeyed (f : Failure) : (rekeyed e password).told f = e.told f := by
  rw [told, told, faultOf_rekeyed]

private theorem toldMessage_rekeyed (f : Failure) :
    (rekeyed e password).toldMessage f = e.toldMessage f := by
  rw [toldMessage, toldMessage, faultOf_rekeyed]

/-! ## The pool -/

private theorem agree_logFor (request : Request) (level : Log.Level) (message : String)
    (fields : Fields) :
    Agree (Engine.logFor request level message fields)
      (Engine.logFor request level message fields) :=
  agree_log _ _ _ _

private theorem agree_orFailure (x : Except Failure α) :
    Agree (orFailure x).run (orFailure x).run := by
  cases x with
  | error f => exact agree_throw f
  | ok a => exact agree_ok a

private theorem agree_makePool (hkey : e.settings.password ≠ "") (hpassword : password ≠ "") :
    Agree e.makePool.run (rekeyed e password).makePool.run := by
  have hurl := maskedUrl_rekeyed hkey hpassword
  have hfault : poolFault (rekeyed e password).settings = poolFault e.settings := by
    rw [poolFault, poolFault, hurl]
  unfold makePool
  rw [hurl, hfault]
  refine Agree.andThen (agree_orFailure (poolOptions e.settings)) fun options => ?_
  refine Agree.andThen (Agree.lift (agree_call _ rfl)) fun made => ?_
  cases made with
  | error f => exact agree_throw _
  | ok reply =>
    refine Agree.andThen (Agree.lift (agree_modify fun _ _ h => ?_)) fun _ => ?_
    · exact ⟨h.script, rfl, h.opened, h.journal, h.scope, h.records, h.spans⟩
    · exact (agree_log _ _ _ _).lift

private theorem agree_ensurePool (hkey : e.settings.password ≠ "") (hpassword : password ≠ "") :
    Agree e.ensurePool.run (rekeyed e password).ensurePool.run := by
  refine agree_lookAt fun s t h => ?_
  rw [← h.hasPool]
  cases s.hasPool with
  | true => exact agree_ok ()
  | false => exact agree_makePool hkey hpassword

private theorem agree_connect (hkey : e.settings.password ≠ "") (hpassword : password ≠ "") :
    Agree e.connect.run (rekeyed e password).connect.run :=
  Agree.andThen (agree_ensurePool hkey hpassword) fun _ => agree_checkOut

private theorem agree_withConnection (hkey : e.settings.password ≠ "") (hpassword : password ≠ "")
    {work work' : Nat → Attempt α} (hwork : ∀ c, Agree (work c).run (work' c).run) :
    Agree (e.withConnection work).run ((rekeyed e password).withConnection work').run :=
  Agree.andThen (agree_connect hkey hpassword) fun c => Agree.thenReleasing c (hwork c)

private theorem agree_probe (c : Nat) : Agree (probe c).run (probe c).run :=
  Agree.andThen (agree_call _ rfl) fun _ => agree_ok ()

/-! ## Statements -/

private theorem agree_execute (s : Statement) :
    Agree (e.execute c s).run ((rekeyed e password).execute c s).run := by
  refine Agree.andThen (agree_orFailure _) fun _ => ?_
  split
  · exact Agree.andThen (agree_call _ rfl) fun reply => agree_orFailure _
  · refine Agree.andThen (agree_orFailure _) fun sql => ?_
    exact Agree.andThen (agree_call _ rfl) fun reply => agree_orFailure _

private theorem agree_runStatements (ss : List Statement) (result : Result) :
    Agree (e.runStatements c result ss).run
      ((rekeyed e password).runStatements c result ss).run := by
  induction ss generalizing result with
  | nil => exact agree_ok result
  | cons s ss ih => exact Agree.andThen (agree_execute s) fun outcome => ih _

private theorem agree_runSingle (plan : Plan) :
    Agree (e.runSingle c plan).run ((rekeyed e password).runSingle c plan).run := by
  refine Agree.andThen (agree_runStatements _ _) fun result => ?_
  exact Agree.andThen (agree_call _ rfl) fun _ => agree_ok result

private theorem agree_runStep (request : Request) (number : Nat) (s : Statement) :
    Agree (e.runStep request c number s).run
      ((rekeyed e password).runStep request c number s).run := by
  refine Agree.andThen (agree_logFor _ _ _ _).lift fun _ => ?_
  refine Agree.andThen (agree_execute s).lift fun outcome => ?_
  cases outcome with
  | ok r => exact agree_ok r
  | error f =>
    simp only [faultOf_rekeyed]
    refine Agree.andThen (agree_orFailure _) fun g => ?_
    exact Agree.andThen (agree_logFor _ _ _ _).lift fun _ => agree_throw _

private theorem agree_runSteps (request : Request) (ss : List Statement) (number : Nat)
    (result : Result) :
    Agree (e.runSteps request c result number ss).run
      ((rekeyed e password).runSteps request c result number ss).run := by
  induction ss generalizing number result with
  | nil => exact agree_ok result
  | cons s ss ih => exact Agree.andThen (agree_runStep request number s) fun outcome => ih _ _

private theorem agree_runTransaction (request : Request) (plan : Plan) :
    Agree (e.runTransaction request c plan).run
      ((rekeyed e password).runTransaction request c plan).run := by
  refine Agree.andThen (agree_logFor _ _ _ _).lift fun _ => ?_
  refine Agree.andThen (Agree.inTransaction c (agree_runSteps _ _ _ _)) fun result => ?_
  exact Agree.andThen (agree_logFor _ _ _ _).lift fun _ => agree_ok result

/-! ## Inquiries -/

private theorem agree_countRows (tables : List String) (sum : Value) :
    Agree (countRows c sum tables).run (countRows c sum tables).run := by
  induction tables generalizing sum with
  | nil => exact agree_ok sum
  | cons table tables ih =>
    refine Agree.andThen (agree_call _ rfl) fun reply => ?_
    refine Agree.andThen (agree_orFailure _) fun v => ?_
    exact Agree.andThen (agree_orFailure _) fun sum => ih sum

private theorem agree_estimate (database : String) :
    Agree (e.estimate c database).run ((rekeyed e password).estimate c database).run := by
  refine Agree.andThen (agree_orFailure _) fun sql => ?_
  refine Agree.andThen (agree_call _ rfl) fun reply => ?_
  refine Agree.andThen (agree_orFailure _) fun row => ?_
  refine Agree.andThen (agree_orFailure _) fun pair => ?_
  refine Agree.andThen (agree_orFailure _) fun tables => ?_
  exact Agree.andThen (agree_orFailure _) fun rows => agree_ok _

private theorem agree_countAll :
    Agree (e.countAll c).run ((rekeyed e password).countAll c).run := by
  refine Agree.andThen (agree_countRows _ _) fun sum => ?_
  exact Agree.andThen (agree_orFailure _) fun n => agree_ok _

private theorem agree_stats : Agree (e.stats c).run ((rekeyed e password).stats c).run := by
  have hdatabase : (rekeyed e password).settings.database = e.settings.database := rfl
  have hserver : (rekeyed e password).server = e.server := rfl
  have hoccupancy : (rekeyed e password).occupancy = e.occupancy := rfl
  simp only [stats, hdatabase, hserver, hoccupancy]
  split
  · exact agree_throw _
  · split
    · exact Agree.andThen (agree_estimate _) fun counts => agree_ok _
    · exact Agree.andThen agree_countAll fun counts => agree_ok _

private theorem agree_inspect (inquiry : Inquiry) :
    Agree (e.inspect c inquiry).run ((rekeyed e password).inspect c inquiry).run := by
  cases inquiry with
  | tables => exact agree_ok _
  | columns table => exact agree_orFailure _
  | utility action table =>
    cases action with
    | ping => exact agree_throw _
    | describeTable =>
      cases table with
      | none => exact agree_throw _
      | some table => exact agree_orFailure _
    | version => exact agree_ok _
    | stats => exact agree_stats

/-! ## Plans -/

section Plans

/-! Both passwords have to be there from here on: an empty one shows in the masked URL. -/

variable (hkey : e.settings.password ≠ "") (hpassword : password ≠ "")
include hkey hpassword

private theorem agree_attempt (request : Request) (plan : Plan) :
    Agree (e.attempt request plan) ((rekeyed e password).attempt request plan) := by
  have hrunOn : ∀ c, Agree (e.runOn request plan c).run
      ((rekeyed e password).runOn request plan c).run := by
    intro c
    unfold runOn
    split
    · exact Agree.andThen (agree_inspect _) fun info => agree_ok _
    · split
      · exact agree_runTransaction request plan
      · exact agree_runSingle plan
  refine Agree.bind (agree_withConnection hkey hpassword hrunOn) fun outcome => ?_
  have htold : (rekeyed e password).told = e.told := funext told_rekeyed
  rw [htold]
  exact agree_pure _

private theorem agree_runWithRetry (request : Request) (plan : Plan) :
    Agree (e.runWithRetry request plan).run
      ((rekeyed e password).runWithRetry request plan).run := by
  have hnumbered : ∀ number, Agree (e.numberedAttempt request plan number)
      ((rekeyed e password).numberedAttempt request plan number) := by
    intro number
    refine Agree.bind (agree_attempt hkey hpassword request plan) fun outcome => ?_
    cases outcome <;> exact agree_pure _
  have hloop : Agree ((e.planRetry request plan).run (e.numberedAttempt request plan))
      (((rekeyed e password).planRetry request plan).run
        ((rekeyed e password).numberedAttempt request plan)) :=
    agree_runFrom rfl rfl rfl (fun _ _ _ => agree_logFor _ _ _ _) (fun _ => agree_note _) hnumbered
      _ _
  refine Agree.andThen hloop.lift fun outcome => ?_
  cases outcome with
  | error a =>
    refine Agree.andThen (Agree.lift ?_) fun _ => agree_throw _
    unfold reportFailure
    split
    · exact agree_logFor _ _ _ _
    · exact agree_pure ()
  | ok result =>
    refine Agree.andThen ?_ fun _ => agree_ok result
    have hlast : Agree (do
        let affected ← orFailure (Failure.written (Value.Display.text? (.int result.affectedRows)))
        logFor request .info "Plan executed"
          (e.planFields plan ++ [("affected_rows", .text affected),
            ("row_count", .text (toString result.rows.length))]) : Attempt Unit).run (do
        let affected ← orFailure (Failure.written (Value.Display.text? (.int result.affectedRows)))
        logFor request .info "Plan executed"
          (e.planFields plan ++ [("affected_rows", .text affected),
            ("row_count", .text (toString result.rows.length))]) : Attempt Unit).run :=
      Agree.andThen (agree_orFailure _) fun _ => (agree_logFor _ _ _ _).lift
    unfold reportResult
    split
    · exact Agree.andThen (agree_logFor _ _ _ _).lift fun _ => hlast
    · exact hlast

private theorem agree_testConnection (request : Request) :
    Agree (e.testConnection request).run ((rekeyed e password).testConnection request).run := by
  have hwarning : ∀ number delay f, Agree (e.testWarning request number delay f).run
      ((rekeyed e password).testWarning request number delay f).run := by
    intro number delay f
    simp only [testWarning, toldMessage_rekeyed]
    exact Agree.andThen (agree_orFailure _) fun _ => (agree_logFor _ _ _ _).lift
  have htests : Agree (e.runTests request).run ((rekeyed e password).runTests request).run := by
    refine Agree.andThen (agree_runFrom_attempt rfl rfl rfl hwarning
      (fun _ => (agree_note _).lift) (fun _ => ?_) _ _) fun last => agree_orFailure last
    exact (agree_withConnection hkey hpassword agree_probe).lift
  refine Agree.andThen htests.lift fun outcome => ?_
  cases outcome with
  | ok _ => exact agree_ok true
  | error f =>
    simp only [toldMessage_rekeyed, maskedUrl_rekeyed hkey hpassword]
    refine Agree.andThen (agree_orFailure _) fun message => ?_
    exact Agree.andThen (agree_logFor _ _ _ _).lift fun _ => agree_ok false

private theorem agree_run (request : Request) (plan : Plan) :
    Agree (e.run request plan).run ((rekeyed e password).run request plan).run := by
  refine Agree.inSpan _ ?_
  split
  · exact Agree.andThen (agree_testConnection hkey hpassword request) fun _ => agree_ok _
  · exact agree_runWithRetry hkey hpassword request plan

/-! ## Opening connections ahead of their use -/

private theorem agree_openConnections (remaining : Nat) (w : Warmed) :
    Agree (e.openConnections remaining w) ((rekeyed e password).openConnections remaining w) := by
  have hstopped : ∀ w f, Agree (e.stopEarly w f) ((rekeyed e password).stopEarly w f) := by
    intro w f
    rw [stopEarly, stopEarly, toldMessage_rekeyed]
    split
    · exact Agree.bind (agree_log _ _ _ _) fun _ => agree_pure w
    · exact agree_pure _
  induction remaining generalizing w with
  | zero => exact agree_pure w
  | succ remaining ih =>
    refine Agree.bind (agree_connect hkey hpassword) fun r => ?_
    cases r with
    | error f => exact hstopped _ f
    | ok connection =>
      refine Agree.bind (agree_probe connection) fun r => ?_
      cases r with
      | error f => exact hstopped _ f
      | ok _ => exact ih _

omit hkey hpassword in
private theorem agree_releaseAll (held : List Nat) (pending : Option Failure) :
    Agree (releaseAll pending held) (releaseAll pending held) := by
  induction held generalizing pending with
  | nil => exact agree_pure pending
  | cons connection held ih =>
    refine Agree.bind (agree_release connection pending) fun r => ?_
    cases r with
    | ok _ => exact ih pending
    | error f => exact ih (some f)

private theorem agree_warmUp (count : Option Int) :
    Agree (e.warmUp count).run ((rekeyed e password).warmUp count).run := by
  refine Agree.andThen (agree_openConnections hkey hpassword _ {}).lift fun w => ?_
  refine Agree.andThen (agree_releaseAll _ _).lift fun r => ?_
  cases r with
  | some f => exact agree_throw f
  | none => exact Agree.andThen (agree_log _ _ _ _).lift fun _ => agree_ok _

private theorem agree_poolStatus : Agree e.poolStatus.run (rekeyed e password).poolStatus.run :=
  Agree.andThen (agree_ensurePool hkey hpassword) fun _ => agree_ok _

end Plans

private theorem agree_dispose : Agree dispose dispose := by
  refine agree_get fun s t h => ?_
  rw [← h.hasPool]
  split
  · refine Agree.bind (agree_modify fun _ _ h => ?_) fun _ => ?_
    · exact ⟨h.script, rfl, h.opened, h.journal, h.scope, h.records, h.spans⟩
    · exact Agree.bind (agree_note _) fun _ => agree_log _ _ _ _
  · exact agree_pure ()

/-! ## Calls of tools -/

private theorem agree_prepare (request : Request) (op : Operation) :
    Agree (prepare request op).run (prepare request op).run := by
  unfold prepare
  cases Plan.ofOperation op with
  | error f =>
    simp only
    cases f.fault? with
    | some g => exact Agree.andThen (agree_log _ _ _ _).lift fun _ => agree_throw _
    | none => exact agree_throw f
  | ok plan => exact Agree.andThen (agree_log _ _ _ _).lift fun _ => agree_ok plan

private theorem agree_inScope (request : Request) {work work' : Attempt α}
    (hwork : Agree work.run work'.run) :
    Agree (Dispatcher.inScope request work).run (Dispatcher.inScope request work').run := by
  have hbind : Agree (Dispatcher.bindScope request) (Dispatcher.bindScope request) :=
    agree_modify fun _ _ h =>
      ⟨h.script, h.hasPool, h.opened, h.journal, by rw [h.scope], h.records, h.spans⟩
  have hclear : Agree Dispatcher.clearScope Dispatcher.clearScope :=
    agree_modify fun _ _ h => ⟨h.script, h.hasPool, h.opened, h.journal, rfl, h.records, h.spans⟩
  refine Agree.andThen hbind.lift fun _ => ?_
  refine Agree.inSpan _ ?_
  refine Agree.andThen hwork.lift fun outcome => ?_
  exact Agree.andThen hclear.lift fun _ => agree_pure outcome

private theorem agree_answerFailure (request : Request) (tool : String) (f : Failure) :
    Agree (Dispatcher.answerFailure request tool f) (Dispatcher.answerFailure request tool f) := by
  unfold Dispatcher.answerFailure
  split
  · exact Agree.bind (agree_log _ _ _ _) fun _ => agree_pure _
  · exact Agree.bind (agree_logFailure _ _ _ _) fun _ => agree_pure _

section Tools

variable (hkey : e.settings.password ≠ "") (hpassword : password ≠ "")
  (enabled : List OperationKind) (now : String)
include hkey hpassword

private theorem agree_dispatch (context : CallContext) (tool : String) (arguments : Value) :
    Agree (Dispatcher.dispatch ⟨e, enabled⟩ now context tool arguments).run
      (Dispatcher.dispatch ⟨rekeyed e password, enabled⟩ now context tool arguments).run := by
  refine Agree.andThen (agree_orFailure _) fun request => Agree.lift ?_
  have hcarryOut : Agree
      (Dispatcher.carryOut ⟨e, enabled⟩ now request tool arguments).run
      (Dispatcher.carryOut ⟨rekeyed e password, enabled⟩ now request tool arguments).run := by
    refine Agree.andThen (agree_orFailure (Operation.ofTool tool arguments)) fun op => ?_
    refine Agree.andThen (agree_log _ _ _ _).lift fun _ => ?_
    refine Agree.andThen (agree_prepare request op) fun plan => ?_
    exact Agree.andThen (agree_run hkey hpassword request plan) fun result => agree_ok _
  have hwork : Agree (if Dispatcher.isEnabled ⟨e, enabled⟩ tool then
      Dispatcher.inScope request (Dispatcher.carryOut ⟨e, enabled⟩ now request tool arguments)
      else throw (.ofFault (Operation.unknownTool tool)) : Attempt Fields).run
      (if Dispatcher.isEnabled ⟨rekeyed e password, enabled⟩ tool then
        Dispatcher.inScope request
          (Dispatcher.carryOut ⟨rekeyed e password, enabled⟩ now request tool arguments)
      else throw (.ofFault (Operation.unknownTool tool)) : Attempt Fields).run := by
    have henabled : Dispatcher.isEnabled ⟨rekeyed e password, enabled⟩ tool =
        Dispatcher.isEnabled ⟨e, enabled⟩ tool := rfl
    rw [henabled]
    split
    · exact agree_inScope _ hcarryOut
    · exact agree_throw _
  refine Agree.bind hwork fun outcome => ?_
  cases outcome with
  | ok envelope => exact agree_pure envelope
  | error f => exact agree_answerFailure _ tool f

private theorem agree_ofCall (context : CallContext) (tool : String) (arguments : Value) :
    Agree (Tool.Answer.ofCall ⟨e, enabled⟩ now context tool arguments)
      (Tool.Answer.ofCall ⟨rekeyed e password, enabled⟩ now context tool arguments) := by
  have hobjection : Tool.Answer.objection? ⟨rekeyed e password, enabled⟩ tool arguments =
      Tool.Answer.objection? ⟨e, enabled⟩ tool arguments := rfl
  unfold Tool.Answer.ofCall
  rw [hobjection]
  split
  · exact agree_pure _
  · exact agree_pure _
  · refine Agree.bind (agree_dispatch hkey hpassword enabled now context tool arguments)
      fun outcome => ?_
    cases outcome <;> exact agree_pure _

end Tools

/-! ## Whole sessions -/

/-- What a gateway may be asked in a session. -/
inductive Step
  | dispatch (now : String) (context : CallContext) (tool : String) (arguments : Value)
  | run (request : Request) (operation : Value)
  | testConnection (request : Request)
  | warmUp (count : Option Int)
  | poolStatus
  | dispose
  | testAndDispose (request : Request)
  | listTools
  | callTool (now : String) (context : CallContext) (tool : String) (arguments : Value)

/-- What a gateway answers. -/
inductive Told
  | envelope (r : Except Failure Fields)
  | result (r : Except Failure Result)
  | reached (r : Except Failure Bool)
  | opened (r : Except Failure Nat)
  | occupied (r : Except Failure Fields)
  | closed
  | tools (tools : List Tool)
  | answer (a : Tool.Answer)

def Step.answer (d : Dispatcher) : Step → Run Told
  | .dispatch now context tool arguments => do
    return .envelope (← (d.dispatch now context tool arguments).run)
  | .run request operation => do
    let work : Attempt Result := do
      let op ← orFailure (Operation.ofValue operation)
      let plan ← prepare request op
      d.engine.run request plan
    return .result (← work.run)
  | .testConnection request => do return .reached (← (d.engine.testConnection request).run)
  | .warmUp count => do return .opened (← (d.engine.warmUp count).run)
  | .poolStatus => do return .occupied (← d.engine.poolStatus.run)
  | .dispose => do
    Engine.dispose
    return .closed
  | .testAndDispose request => do return .reached (← (d.engine.testAndDispose request).run)
  | .listTools => pure (.tools d.tools)
  | .callTool now context tool arguments => do
    return .answer (← Tool.Answer.ofCall d now context tool arguments)

/-- A question, with the database as it is found then and the outcomes of its calls. -/
structure Turn where
  server : Server := {}
  script : Script := Script.empty
  step : Step

def converse (settings : DatabaseSettings) (enabled : List OperationKind) :
    List Turn → Run (List Told)
  | [] => pure []
  | turn :: turns => do
    modify fun s => { s with script := turn.script }
    let told ← turn.step.answer ⟨⟨settings, turn.server⟩, enabled⟩
    return told :: (← converse settings enabled turns)

def serve (settings : DatabaseSettings) (selection : Tool.Selection) (turns : List Turn) :
    Run (List Told) := do
  let d ← Dispatcher.ofSelection ⟨settings, {}⟩ selection
  converse settings d.enabled turns

private theorem agree_answer (hkey : e.settings.password ≠ "") (hpassword : password ≠ "")
    (enabled : List OperationKind) (step : Step) :
    Agree (step.answer ⟨e, enabled⟩) (step.answer ⟨rekeyed e password, enabled⟩) := by
  cases step with
  | dispatch now context tool arguments =>
    exact Agree.bind (agree_dispatch hkey hpassword enabled now context tool arguments)
      fun _ => agree_pure _
  | run request operation =>
    have hwork : Agree (do
        let op ← orFailure (Operation.ofValue operation)
        let plan ← prepare request op
        e.run request plan : Attempt Result).run (do
        let op ← orFailure (Operation.ofValue operation)
        let plan ← prepare request op
        (rekeyed e password).run request plan : Attempt Result).run := by
      refine Agree.andThen (agree_orFailure _) fun op => ?_
      exact Agree.andThen (agree_prepare request op) fun plan =>
        agree_run hkey hpassword request plan
    exact Agree.bind hwork fun _ => agree_pure _
  | testConnection request =>
    exact Agree.bind (agree_testConnection hkey hpassword request) fun _ => agree_pure _
  | warmUp count => exact Agree.bind (agree_warmUp hkey hpassword count) fun _ => agree_pure _
  | poolStatus => exact Agree.bind (agree_poolStatus hkey hpassword) fun _ => agree_pure _
  | dispose => exact Agree.bind agree_dispose fun _ => agree_pure _
  | testAndDispose request =>
    have hwork : Agree (e.testAndDispose request).run
        ((rekeyed e password).testAndDispose request).run :=
      Agree.andThen (agree_testConnection hkey hpassword request).lift fun reached =>
        Agree.andThen agree_dispose.lift fun _ => agree_orFailure reached
    exact Agree.bind hwork fun _ => agree_pure _
  | listTools => exact agree_pure _
  | callTool now context tool arguments =>
    exact Agree.bind (agree_ofCall hkey hpassword enabled now context tool arguments)
      fun _ => agree_pure _

private theorem agree_converse {settings : DatabaseSettings} (hkey : settings.password ≠ "")
    (hpassword : password ≠ "") (enabled : List OperationKind) (turns : List Turn) :
    Agree (converse settings enabled turns)
      (converse { settings with password := password } enabled turns) := by
  induction turns with
  | nil => exact agree_pure []
  | cons turn turns ih =>
    refine Agree.bind (agree_modify fun _ _ h => ?_) fun _ => ?_
    · exact ⟨rfl, h.hasPool, h.opened, h.journal, h.scope, h.records, h.spans⟩
    · refine Agree.bind (agree_answer (e := ⟨settings, turn.server⟩) hkey hpassword enabled _)
        fun told => ?_
      exact Agree.bind ih fun tolds => agree_pure (told :: tolds)

/-- The password leaks nowhere. Where settings differ in nothing but a password that is not empty,
whatever is asked in a session and whichever calls fail in it, the answers are the same, and so is
everything that is logged, told to telemetry and asked of the database, apart from the URL by which
the pool is made. -/
theorem serve_alike {settings settings' : DatabaseSettings}
    (hsame : settings' = { settings with password := settings'.password })
    (hkey : settings.password ≠ "") (hkey' : settings'.password ≠ "") (selection : Tool.Selection)
    (turns : List Turn) (s : Session) :
    (course (serve settings selection turns) s).1 = (course (serve settings' selection turns) s).1 ∧
      Alike (course (serve settings selection turns) s).2
        (course (serve settings' selection turns) s).2 := by
  have hconverse := agree_converse hkey hkey' selection.enabled turns
  rw [← hsame] at hconverse
  simp only [serve, course_bind, course_ofSelection]
  exact hconverse _ _ (Alike.refl _)

def keyed (password : String) : DatabaseSettings :=
  { plainEngine.settings with password := password }

/-- The driver is missing at first; then the server lets nobody in. -/
def refused : List Turn :=
  let missing : Outcome := .failed (.ofText (.general "ImportError") "No module named 'pymysql'")
  let denied : Outcome :=
    .failed (.mk (.general "DriverError") [.int 1045, .text "Access denied"] none none none)
  let request : Request := ⟨"r", none, []⟩
  [{ script := fun kind => if kind = .createPool then [missing] else []
     step := .dispatch "now" ⟨"r", none, []⟩ "list" (.object []) },
   { script := fun kind => if kind = .checkOut then [denied, denied, denied] else []
     step := .testAndDispose request }]

theorem serve_alike_refused :
    keyed "hunter2" = { keyed "s3cret" with password := (keyed "hunter2").password } ∧
      (keyed "s3cret").password ≠ "" ∧ (keyed "hunter2").password ≠ "" ∧
      (keyed "s3cret").url ≠ (keyed "hunter2").url ∧
      (course (serve (keyed "s3cret") .every refused) {}).1 =
        (course (serve (keyed "hunter2") .every refused) {}).1 ∧
      Alike (course (serve (keyed "s3cret") .every refused) {}).2
        (course (serve (keyed "hunter2") .every refused) {}).2 :=
  have hkey : (keyed "s3cret").password ≠ "" := by decide +kernel
  have hkey' : (keyed "hunter2").password ≠ "" := by decide +kernel
  have hsame : keyed "hunter2" =
      { keyed "s3cret" with password := (keyed "hunter2").password } := by
    simp only [keyed]
  have hurl : (keyed "s3cret").url ≠ (keyed "hunter2").url := by decide +kernel
  ⟨hsame, hkey, hkey', hurl, serve_alike hsame hkey hkey' .every refused {}⟩

end QueryGateway.Proofs.Engine.Secrecy
