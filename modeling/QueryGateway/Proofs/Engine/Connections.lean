import QueryGateway.Proofs.Database.Holding
import QueryGateway.Proofs.Engine.Attempts
import QueryGateway.Proofs.Engine.Commits
import QueryGateway.Proofs.Settings.Bounds
import QueryGateway.Tool.Dispatcher

/-!
No connection is lost. Whatever the gateway is asked for, and whichever calls of the database fail
while it answers, it gives back each connection that it took, and it never holds more of them than
the pool may have.
-/

set_option autoImplicit false
set_option relaxedAutoImplicit false

namespace QueryGateway.Proofs.Engine.Connections

open QueryGateway.Database
open QueryGateway.Engine
open QueryGateway.Settings (DatabaseSettings Source)
open QueryGateway.Proofs.Database.Calls (course)
open QueryGateway.Proofs.Database.Events
open QueryGateway.Proofs.Database.Holding
open QueryGateway.Proofs.Engine.Attempts
open QueryGateway.Proofs.Engine.Commits (adding plainEngine)
open QueryGateway.Proofs.Engine.Courses
open QueryGateway.Proofs.Retry.Tries
open QueryGateway.Proofs.Settings.Bounds

variable {α : Type} {e : Engine} {limit : Nat}

/-! ## Work that gives back what it takes -/

/-- Events within a limit before and after which no connection is held. -/
abbrev Balanced (limit : Nat) (events : List Event) : Prop := Handles limit [] events []

theorem closed_balanced (limit : Nat) : Closed (Balanced limit) where
  nil := .nil
  append := Handles.append

private theorem neutral_of_pooling {m : List Event} (h : Pooling m) : ∀ ev ∈ m, Neutral ev := by
  intro ev hev
  obtain ⟨url, options, hcall⟩ := h ev hev
  simp [Neutral, taken, returned, hcall]

private theorem neutral_of_serving {c : Nat} {m : List Event} (h : Serving c m) :
    ∀ ev ∈ m, Neutral ev := by
  intro ev hev
  have hserves := h ev hev
  generalize hcall : ev.call = call at hserves
  cases call <;> simp_all [Neutral, taken, returned, Serves]

theorem neutral_of_unconnected {m : List Event} {f : Failure} (h : Connects m (.error f)) :
    ∀ ev ∈ m, Neutral ev := by
  cases h with
  | poolless hm => exact neutral_of_pooling hm
  | refused c _ hm =>
    have hlast : Neutral ⟨.checkOut c, .failed f⟩ := ⟨rfl, rfl⟩
    exact List.forall_mem_append.mpr ⟨neutral_of_pooling hm, List.forall_mem_singleton.mpr hlast⟩

theorem handles_of_connected {m : List Event} {c : Nat} {held : List Nat}
    (hroom : held.length < limit) (h : Connects m (.ok c)) :
    Handles limit held m (c :: held) := by
  cases h with
  | connected _ reply hm =>
    exact (Handles.neutral (neutral_of_pooling hm)).append (.taking c reply hroom .nil)

private theorem balanced_of_held {rule : Nat → List Event → Except Failure α → Prop}
    (hrule : ∀ {c m q}, rule c m q → Serving c m) (hlimit : 1 ≤ limit) {events : List Event}
    {r : Except Failure α} (h : Held rule events r) : Balanced limit events := by
  cases h with
  | unconnected hm => exact .neutral (neutral_of_unconnected hm)
  | @connected m n c r hm hn =>
    obtain ⟨k, q, o, hk, rfl, rfl⟩ := hn
    have htaken : Handles limit [] m [c] := handles_of_connected hlimit hm
    have hworked : Handles limit [c] k [c] := .neutral (neutral_of_serving (hrule hk))
    have hreturned : Handles limit [c] [⟨.release c, o⟩] [] := by
      refine .returning c o (List.mem_singleton_self c) ?_
      rw [List.erase_cons_head]
      exact .nil
    exact htaken.append (hworked.append hreturned)

private theorem keeps_withConnection {work : Nat → Attempt α}
    (hwork : ∀ c, Keeps (Serving c) (work c).run)
    (hlimit : 1 ≤ limit) : Keeps (Balanced limit) (e.withConnection work).run := by
  have hheld : Unfolds (e.withConnection work).run (Held fun c m _ => Serving c m) :=
    unfolds_withConnection hwork
  exact hheld.mono fun _ _ h => balanced_of_held id hlimit h

theorem balanced_pause (delay : Number.Binary64) : Balanced limit [.sure (.sleep delay)] :=
  .passing ⟨rfl, rfl⟩ .nil

/-! ## Tests of the connection -/

private theorem keeps_probe (c : Nat) : Keeps (Serving c) (probe c).run :=
  Keeps.andThen (closed_serving c) (keeps_execute _ _) fun _ => keeps_ok (closed_serving c) ()

def telling (e : Engine) (f : Failure) : Except Failure Unit := (e.toldMessage f).map fun _ => ()

/-- What a test is reported as that came to its last attempt, behind which more are allowed or not.
A failure has to be told about there too. -/
def reported (e : Engine) (remaining : Nat) (y : Except Failure Unit) : Except Failure Bool :=
  match (concluded (telling e) remaining y).bind id with
  | .ok _ => .ok true
  | .error f => (telling e f).map fun _ => false

private theorem gives_testWarning (request : Request) (number : Nat) (delay : Number.Binary64)
    (f : Failure) (p : Prospect) :
    Gives (e.testWarning request number delay f).run p [] (telling e f) := by
  rw [testWarning, telling]
  cases e.toldMessage f with
  | error g => exact gives_pure (Except.error g) p
  | ok message => exact (gives_logFor _ _ _ _ p).lift

theorem gives_testConnection {rule : Prospect → List Event → Except Failure Unit → Prop}
    (hattempt : ∀ p, ∃ events y, Gives (e.withConnection probe).run p events y ∧ rule p events y)
    (request : Request) (p : Prospect) :
    ∃ front t, Row rule (goesOn (telling e)) e.settings.retryDelay 1 2 p (front ++ [t]) ∧
      Gives (e.testConnection request).run p (inRow e.settings.retryDelay 1 (front ++ [t]))
        (reported e (2 - front.length) t.outcome) := by
  obtain ⟨front, t, hrow, hloop⟩ := gives_runFrom_telling (r := e.testRetry request)
    (fun _ => hattempt) (fun _ => rfl) (fun _ _ => rfl) (gives_testWarning request) rfl 2 1 p
  refine ⟨front, t, hrow, ?_⟩
  have htests : Gives (e.runTests request).run p (inRow e.settings.retryDelay 1 (front ++ [t]))
      ((concluded (telling e) (2 - front.length) t.outcome).bind id) := by
    rw [runTests]
    cases hlast : concluded (telling e) (2 - front.length) t.outcome with
    | error g =>
      rw [hlast] at hloop
      exact hloop.stop
    | ok y =>
      rw [hlast] at hloop
      rw [← List.append_nil (inRow _ _ _)]
      refine hloop.andThen ?_
      cases y with
      | error f => exact gives_pure (Except.error f) _
      | ok u => exact gives_pure (Except.ok u) _
  rw [testConnection, reported, ← List.append_nil (inRow _ _ _)]
  refine htests.lift.andThen ?_
  cases (concluded (telling e) (2 - front.length) t.outcome).bind id with
  | ok _ => exact gives_pure (Except.ok true) _
  | error f =>
    simp only [telling]
    cases e.toldMessage f with
    | error g => exact gives_pure (Except.error g) _
    | ok message =>
      refine Gives.andThen (gives_pure (Except.ok message) _) ?_
      exact Gives.andThen (gives_logFor _ _ _ _ _).lift (gives_pure (Except.ok false) _)

private theorem keeps_testing {rule : List Event → Prop} (hclosed : Closed rule)
    (hattempt : Keeps rule (e.withConnection probe).run)
    (hpause : ∀ delay, rule [.sure (.sleep delay)]) (request : Request) :
    Keeps rule (e.testConnection request).run := by
  intro p
  obtain ⟨front, t, hrow, hgives⟩ :=
    @gives_testConnection e (fun _ events _ => rule events) hattempt request p
  refine ⟨_, _, hgives, closed_inRow hclosed hpause ?_ 1⟩
  intro u hu
  obtain ⟨_, hu⟩ := hrow.rule_of_mem u hu
  exact hu

private theorem keeps_testConnection (request : Request) (hlimit : 1 ≤ limit) :
    Keeps (Balanced limit) (e.testConnection request).run :=
  keeps_testing (closed_balanced limit) (keeps_withConnection keeps_probe hlimit) balanced_pause
    request

/-! ## Plans -/

theorem keeps_run (request : Request) (plan : Plan) (hlimit : 1 ≤ limit) :
    Keeps (Balanced limit) (e.run request plan).run := by
  have hclosed := closed_balanced limit
  cases hping : isPing plan with
  | true =>
    have hwork : Keeps (Balanced limit) (e.ping request plan).run :=
      Keeps.andThen hclosed (keeps_testConnection request hlimit) fun _ => keeps_ok hclosed _
    simp only [Engine.run, hping, if_true]
    exact hwork.inSpan _
  | false =>
    intro p
    have hattempt : ∀ q, ∃ events y, Gives (e.attempt request plan) q events y ∧
        Balanced limit events := by
      intro q
      obtain ⟨events, x, hwork, hheld⟩ := unfolds_attemptWork e request plan q
      exact ⟨events, _, gives_attempt hwork, balanced_of_held serving_of_worked hlimit hheld⟩
    obtain ⟨front, t, hrow, hrun⟩ := gives_run hping hattempt p
    refine ⟨_, _, hrun, closed_inRow hclosed balanced_pause ?_ 1⟩
    intro u hu
    obtain ⟨_, hbalanced⟩ := hrow.rule_of_mem u hu
    exact hbalanced

/-! ## The pool -/

/-- What is left when opening connections stops early with a failure. -/
def stopped (e : Engine) (w : Warmed) (f : Failure) : Warmed :=
  match e.toldMessage f with
  | .ok _ => w
  | .error g => { w with broken := some g }

theorem gives_stopEarly (w : Warmed) (f : Failure) (p : Prospect) :
    Gives (e.stopEarly w f) p [] (stopped e w f) := by
  rw [stopEarly, stopped]
  cases e.toldMessage f with
  | error g => exact gives_pure _ p
  | ok message => exact Gives.bind (gives_log _ _ _ _ p) (gives_pure w _)

private theorem held_stopped (w : Warmed) (f : Failure) : (stopped e w f).held = w.held := by
  rw [stopped]
  cases e.toldMessage f <;> rfl

private theorem unfolds_openConnections (n : Nat) (w : Warmed) (hroom : w.held.length + n ≤ limit) :
    Unfolds (e.openConnections n w) fun events w' => Handles limit w.held events w'.held := by
  induction n generalizing w with
  | zero =>
    refine (unfolds_pure w).mono ?_
    rintro events w' ⟨rfl, rfl⟩
    exact .nil
  | succ n ih =>
    have hstopped : ∀ f (w : Warmed), Unfolds (e.stopEarly w f) fun events w' =>
        events = [] ∧ w'.held = w.held := fun f w p =>
      ⟨_, _, gives_stopEarly w f p, rfl, held_stopped w f⟩
    -- What is opened behind a connection that was taken starts with that connection.
    refine (Unfolds.bind (q := fun r events w' => ∀ m, Connects m r →
      Handles limit w.held (m ++ events) w'.held) unfolds_connect fun r => ?_).mono ?_
    · cases r with
      | error f =>
        refine (hstopped f w).mono ?_
        rintro events w' ⟨rfl, hheld⟩ m hm
        rw [hheld]
        exact (Handles.neutral (neutral_of_unconnected hm)).append .nil
      | ok c =>
        refine (Unfolds.bind (q := fun _ events w' => Handles limit (c :: w.held) events w'.held)
          (keeps_probe c) fun r => ?_).mono ?_
        · cases r with
          | error f =>
            refine (hstopped f { w with held := c :: w.held }).mono ?_
            rintro events w' ⟨rfl, hheld⟩
            rw [hheld]
            exact .nil
          | ok _ =>
            refine ih { w with held := c :: w.held, checked := w.checked + 1 } ?_
            rw [List.length_cons]
            omega
        · rintro events w' ⟨m', _, k, rfl, hm', hk⟩ m hm
          have hprobed : Handles limit (c :: w.held) m' (c :: w.held) :=
            .neutral (neutral_of_serving hm')
          exact (handles_of_connected (by omega) hm).append (hprobed.append hk)
    · rintro events w' ⟨m, r, k, rfl, hm, hk⟩
      exact hk m hm

private theorem unfolds_releaseAll (held : List Nat) (pending : Option Failure) :
    Unfolds (releaseAll pending held) fun events _ => Handles limit held events [] := by
  induction held generalizing pending with
  | nil =>
    refine (unfolds_pure pending).mono ?_
    rintro events r ⟨rfl, rfl⟩
    exact .nil
  | cons c held ih =>
    have hrelease : Unfolds (release c pending).run fun events _ =>
        ∃ o, events = [⟨.release c, o⟩] := fun p => ⟨_, _, gives_release c pending p, _, rfl⟩
    refine (Unfolds.bind (q := fun _ events _ => Handles limit held events []) hrelease
      fun r => ?_).mono ?_
    · cases r with
      | ok _ => exact ih pending
      | error f => exact ih (some f)
    · rintro events r ⟨m, _, k, rfl, ⟨o, rfl⟩, hk⟩
      refine .returning c o List.mem_cons_self ?_
      rw [List.erase_cons_head]
      exact hk

private theorem keeps_warmUp (count : Option Int) (hlimit : e.warmUpTarget count ≤ limit) :
    Keeps (Balanced limit) (e.warmUp count).run := by
  have hopen : Unfolds (openConnections e (e.warmUpTarget count) {}) fun events w =>
      Handles limit [] events w.held :=
    unfolds_openConnections _ {} (by simpa using hlimit)
  refine (Unfolds.andThen (q := fun w events _ => Handles limit w.held events []) hopen.lift
    fun w => ?_).mono ?_
  · have hreleased : Unfolds (releaseAll w.broken w.held) fun events _ =>
        Handles limit w.held events [] := unfolds_releaseAll w.held w.broken
    refine (Unfolds.andThen (q := fun _ events _ => events = []) hreleased.lift fun r => ?_).mono ?_
    · cases r with
      | some f => exact fun p => ⟨[], _, gives_pure (Except.error f) p, rfl⟩
      | none =>
        exact fun p => ⟨[], _, Gives.andThen (gives_log _ _ _ _ p).lift (gives_pure _ _), rfl⟩
    · rintro events r (⟨f, rfl, _, h, _⟩ | ⟨m, _, k, rfl, ⟨_, _, hm⟩, rfl⟩)
      · cases h
      · rwa [List.append_nil]
  · rintro events r (⟨f, rfl, _, h, _⟩ | ⟨m, _, k, rfl, ⟨w, hw, hm⟩, hk⟩)
    · cases h
    · cases hw
      exact hm.append hk

private theorem keeps_poolStatus : Keeps (Balanced limit) e.poolStatus.run := by
  have hclosed := closed_balanced limit
  have hpool : Keeps (Balanced limit) e.ensurePool.run :=
    keeps_ensurePool.mono fun _ _ hm => .neutral (neutral_of_pooling hm)
  exact Keeps.andThen hclosed hpool fun _ => keeps_ok hclosed _

private theorem keeps_dispose : Keeps (Balanced limit) dispose := by
  intro p
  have hrun : ∀ s, course dispose s = if s.hasPool then course (do
      modify fun s => { s with hasPool := false }
      note .disposePool
      log .info poolLogger "Database pool closed" []) s else ((), s) := by
    intro s
    change course (if s.hasPool then _ else _) s = _
    split <;> rfl
  cases hpool : p.hasPool with
  | true =>
    refine ⟨[.sure .disposePool], (), ⟨⟨⟨rfl, nofun⟩, trivial⟩, ?_⟩, .passing ⟨rfl, rfl⟩ .nil⟩
    rintro s rfl
    have hs : s.hasPool = true := hpool
    rw [hrun, if_pos hs]
    exact ⟨rfl, rfl, rfl⟩
  | false =>
    refine ⟨[], (), ⟨trivial, ?_⟩, .nil⟩
    rintro s rfl
    have hs : s.hasPool = false := hpool
    rw [hrun, hs, if_neg Bool.false_ne_true]
    exact ⟨rfl, rfl, rfl⟩

/-! ## Calls of tools -/

private theorem keeps_inScope {rule : List Event → Prop} (hclosed : Closed rule) (request : Request)
    {work : Attempt α} (hwork : Keeps rule work.run) :
    Keeps rule (Dispatcher.inScope request work).run := by
  have hbind : ∀ p, Gives (Dispatcher.bindScope request) p [] () :=
    gives_modify (fun _ => rfl) fun _ => rfl
  have hclear : ∀ p, Gives Dispatcher.clearScope p [] () := gives_modify (fun _ => rfl) fun _ => rfl
  have hinner : Keeps rule (do
      let outcome ← ExceptT.lift work.run
      Dispatcher.clearScope
      ExceptT.mk (pure outcome) : Attempt α).run := by
    refine Keeps.andThen hclosed hwork.lift fun outcome => ?_
    refine Keeps.andThen hclosed (Gives.keeps hclosed hclear).lift fun _ => ?_
    exact keeps_pure hclosed outcome
  refine Keeps.andThen hclosed (Gives.keeps hclosed hbind).lift fun _ => ?_
  exact hinner.inSpan _

private theorem keeps_prepare {rule : List Event → Prop} (hclosed : Closed rule) (request : Request)
    (op : Operation) : Keeps rule (Engine.prepare request op).run := by
  have hlog : ∀ level logger message fields,
      Keeps rule (ExceptT.lift (log level logger message fields) : Attempt Unit).run :=
    fun _ _ _ _ => (Gives.keeps hclosed fun p => gives_log _ _ _ _ p).lift
  unfold Engine.prepare
  cases Plan.ofOperation op with
  | error f =>
    simp only
    cases f.fault? with
    | some g => exact Keeps.andThen hclosed (hlog _ _ _ _) fun _ => keeps_throw hclosed _
    | none => exact keeps_throw hclosed f
  | ok plan => exact Keeps.andThen hclosed (hlog _ _ _ _) fun _ => keeps_ok hclosed plan

private theorem keeps_carryOut (d : Dispatcher) (now : String) (request : Request) (tool : String)
    (arguments : Value) (hlimit : 1 ≤ limit) :
    Keeps (Balanced limit) (d.carryOut now request tool arguments).run := by
  have hclosed := closed_balanced limit
  have hlog : ∀ level message fields,
      Keeps (Balanced limit) (Dispatcher.logFor request level message fields) :=
    fun _ _ _ => Gives.keeps hclosed fun p => gives_log _ _ _ _ p
  refine Keeps.andThen hclosed (keeps_orFailure hclosed _) fun op => ?_
  refine Keeps.andThen hclosed (hlog _ _ _).lift fun _ => ?_
  refine Keeps.andThen hclosed (keeps_prepare hclosed request op) fun plan => ?_
  exact Keeps.andThen hclosed (keeps_run request plan hlimit) fun result => keeps_ok hclosed _

private theorem keeps_answerFailure {rule : List Event → Prop} (hclosed : Closed rule)
    (request : Request)
    (tool : String) (f : Failure) : Keeps rule (Dispatcher.answerFailure request tool f) := by
  unfold Dispatcher.answerFailure
  split
  · refine Keeps.bind hclosed (Gives.keeps hclosed fun p => gives_log _ _ _ _ p) fun _ => ?_
    exact keeps_pure hclosed _
  · refine Keeps.bind hclosed (Gives.keeps hclosed fun p => gives_logFailure _ _ _ _ p) fun _ => ?_
    exact keeps_pure hclosed _

private theorem keeps_answer (d : Dispatcher) (now : String) (request : Request) (tool : String)
    (arguments : Value) (hlimit : 1 ≤ limit) :
    Keeps (Balanced limit) (d.answer now request tool arguments) := by
  have hclosed := closed_balanced limit
  have hwork : Keeps (Balanced limit) (if d.isEnabled tool then
      Dispatcher.inScope request (d.carryOut now request tool arguments)
      else throw (.ofFault (Operation.unknownTool tool)) : Attempt Fields).run := by
    split
    · exact keeps_inScope hclosed _ (keeps_carryOut d now _ tool arguments hlimit)
    · exact keeps_throw hclosed _
  refine Keeps.bind hclosed hwork fun outcome => ?_
  cases outcome with
  | ok envelope => exact keeps_pure hclosed envelope
  | error f => exact keeps_answerFailure hclosed _ tool f

private theorem keeps_dispatch (d : Dispatcher) (now : String) (context : CallContext)
    (tool : String) (arguments : Value) (hlimit : 1 ≤ limit) :
    Keeps (Balanced limit) (d.dispatch now context tool arguments).run :=
  Keeps.andThen (closed_balanced limit) (keeps_orFailure (closed_balanced limit) _) fun request =>
    (keeps_answer d now request tool arguments hlimit).lift

/-! ## Whole sessions -/

/-- What a gateway may be asked for, one thing after another. -/
inductive Task
  | dispatch (enabled : List OperationKind) (now : String) (context : CallContext) (tool : String)
      (arguments : Value)
  | run (request : Request) (plan : Plan)
  | testConnection (request : Request)
  | warmUp (count : Option Int)
  | poolStatus
  | dispose

/-- Does what is asked for and drops the answer, be it a result or a failure. -/
def Task.perform (e : Engine) : Task → Run Unit
  | .dispatch enabled now context tool arguments => do
    let _ ← (Dispatcher.dispatch ⟨e, enabled⟩ now context tool arguments).run
  | .run request plan => do
    let _ ← (e.run request plan).run
  | .testConnection request => do
    let _ ← (e.testConnection request).run
  | .warmUp count => do
    let _ ← (e.warmUp count).run
  | .poolStatus => do
    let _ ← e.poolStatus.run
  | .dispose => Engine.dispose

/-- How many connections a task may hold at a time: those of the pool to open them ahead of their
use, and one for anything else. -/
def Task.most (settings : DatabaseSettings) : Task → Int
  | .warmUp _ => settings.connectionLimit
  | _ => 1

def performAll (settings : DatabaseSettings) : List (Server × Task) → Run Unit
  | [] => pure ()
  | (server, task) :: rest => do
    task.perform ⟨settings, server⟩
    performAll settings rest

/-- The events of tasks that are done one after another, each part with its connections in order. -/
inductive InOrder (settings : DatabaseSettings) :
    Prospect → List (Server × Task) → List (List Event) → Prop
  | nil (p : Prospect) : InOrder settings p [] []
  | cons {p : Prospect} {server : Server} {task : Task} {rest : List (Server × Task)}
      {part : List Event} {parts : List (List Event)} :
      Gives (task.perform ⟨settings, server⟩) p part () → Tidy (task.most settings) part →
      InOrder settings (p.through part) rest parts →
      InOrder settings p ((server, task) :: rest) (part :: parts)

private theorem keeps_perform (e : Engine) (task : Task) :
    Keeps (Balanced (task.most e.settings).toNat) (task.perform e) := by
  have hdrop : ∀ {β : Type} {most : Nat} {work : Run β}, Keeps (Balanced most) work →
      Keeps (Balanced most) (work >>= fun _ => pure ()) := fun hwork =>
    Keeps.bind (closed_balanced _) hwork fun _ => keeps_pure (closed_balanced _) ()
  cases task with
  | dispatch enabled now context tool arguments =>
    exact hdrop (keeps_dispatch ⟨e, enabled⟩ now context tool arguments Nat.le.refl)
  | run request plan => exact hdrop (keeps_run request plan Nat.le.refl)
  | testConnection request => exact hdrop (keeps_testConnection request Nat.le.refl)
  | warmUp count =>
    have htarget : e.warmUpTarget count ≤ e.settings.connectionLimit.toNat :=
      Int.toNat_le_toNat (Int.min_le_right _ _)
    exact hdrop (keeps_warmUp count htarget)
  | poolStatus => exact hdrop keeps_poolStatus
  | dispose => exact keeps_dispose

private theorem most_bounds (settings : DatabaseSettings) (task : Task)
    (hlimit : 1 ≤ settings.connectionLimit) :
    1 ≤ task.most settings ∧ task.most settings ≤ settings.connectionLimit := by
  cases task with
  | warmUp count => exact ⟨hlimit, Int.le_refl _⟩
  | _ => exact ⟨Int.le_refl 1, hlimit⟩

private theorem exists_performed (e : Engine) (task : Task)
    (hlimit : 1 ≤ e.settings.connectionLimit)
    (p : Prospect) : ∃ part, Gives (task.perform e) p part () ∧ Tidy (task.most e.settings) part ∧
      Balanced e.settings.connectionLimit.toNat part := by
  obtain ⟨part, _, hgives, hbalanced⟩ := keeps_perform e task p
  obtain ⟨hone, hmost⟩ := most_bounds e.settings task hlimit
  have htidy := tidy_of_handles hgives.allowed hbalanced
  rw [Int.toNat_of_nonneg (by omega)] at htidy
  exact ⟨part, hgives, htidy, hbalanced.mono (Int.toNat_le_toNat hmost)⟩

private theorem exists_inOrder (settings : DatabaseSettings) (hlimit : 1 ≤ settings.connectionLimit)
    (tasks : List (Server × Task)) (p : Prospect) :
    ∃ parts, InOrder settings p tasks parts ∧ Gives (performAll settings tasks) p parts.flatten () ∧
      Balanced settings.connectionLimit.toNat parts.flatten := by
  induction tasks generalizing p with
  | nil => exact ⟨[], .nil p, gives_pure () p, .nil⟩
  | cons task rest ih =>
    obtain ⟨server, task⟩ := task
    obtain ⟨part, hgives, htidy, hpart⟩ := exists_performed ⟨settings, server⟩ task hlimit p
    obtain ⟨parts, horder, hrest, hparts⟩ := ih (p.through part)
    refine ⟨part :: parts, .cons hgives htidy horder, ?_, ?_⟩
    · exact hgives.bind hrest
    · exact hpart.append hparts

/-- No connection is lost over a whole session. Whatever is asked for in whichever order, every
connection that a task takes is given back exactly once before that task is over, a task that opens
no connections ahead of their use holds one at a time, and no more connections than the pool may
have are checked out at any time. -/
theorem session_keeps_connections {source : Source} {settings : DatabaseSettings}
    (hsettings : (DatabaseSettings.ofSource source).value? = some settings)
    (tasks : List (Server × Task)) (s : Session) :
    ∃ parts, InOrder settings (prospect s) tasks parts ∧
      Tidy settings.connectionLimit parts.flatten ∧
      (course (performAll settings tasks) s).2.journal =
        (entries parts.flatten).reverse ++ s.journal := by
  have hlimit := (inBounds_ofSource hsettings).connectionLimit.1
  obtain ⟨parts, horder, hgives, hbalanced⟩ := exists_inOrder settings hlimit tasks (prospect s)
  obtain ⟨_, _, hjournal⟩ := hgives.course s rfl
  have htidy := tidy_of_handles hgives.allowed hbalanced
  rw [Int.toNat_of_nonneg (by omega)] at htidy
  exact ⟨parts, horder, htidy, hjournal⟩

/-- A session in which statements fail, and so do the first two releases. -/
def leaking : Session :=
  { script := fun kind =>
      let lost : Outcome :=
        .failed (.mk (.general "DriverError") [.int 2013, .text "Lost connection"] none none none)
      match kind with
      | .execute => [lost, .done .plain, lost]
      | .release => [lost, lost]
      | _ => [] }

/-- A plan is run, connections are opened ahead of their use and the pool is closed. -/
def errands : List (Server × Task) :=
  [({}, .run ⟨"r", none, []⟩ adding), ({}, .warmUp (some 2)), ({}, .dispose)]

theorem session_keeps_connections_leaking :
    (DatabaseSettings.ofSource ⟨[], [], "sqlgate_db_"⟩).value? = some plainEngine.settings ∧
      ∃ parts, InOrder plainEngine.settings (prospect leaking) errands parts ∧
        Tidy plainEngine.settings.connectionLimit parts.flatten ∧
        (course (performAll plainEngine.settings errands) leaking).2.journal =
          (entries parts.flatten).reverse ++ leaking.journal :=
  have hsettings : (DatabaseSettings.ofSource ⟨[], [], "sqlgate_db_"⟩).value? =
      some plainEngine.settings := by decide +kernel
  ⟨hsettings, session_keeps_connections hsettings errands leaking⟩

end QueryGateway.Proofs.Engine.Connections
