import QueryGateway.Proofs.Engine.Commits
import QueryGateway.Proofs.Engine.Connections
import QueryGateway.Proofs.Failure.Texts
import QueryGateway.Proofs.Operation.Kinds
import QueryGateway.Proofs.Tool.Envelopes
import QueryGateway.Proofs.Tool.Selections

/-!
Calls of tools. A call is answered with an envelope, whatever the tool, its arguments and the
database, unless its context holds an attribute that cannot be written. A call that is refused
reaches no database, and a call that is not is carried out as the operation that its tool stands
for.
-/

set_option autoImplicit false
set_option relaxedAutoImplicit false

namespace QueryGateway.Proofs.Tool.Dispatching

open QueryGateway.Database
open QueryGateway.Engine (Result)
open QueryGateway.Telemetry (Span)
open QueryGateway.Tool (Selection)
open QueryGateway.Proofs.Database.Calls (course)
open QueryGateway.Proofs.Database.Events
open QueryGateway.Proofs.Engine.Commits (plainEngine)
open QueryGateway.Proofs.Engine.Connections (Balanced keeps_run)
open QueryGateway.Proofs.Engine.Findings
open QueryGateway.Proofs.Failure.Texts
open QueryGateway.Proofs.Number.Numeral (leastTooLong isTooLong_leastTooLong)
open QueryGateway.Proofs.Operation.Kinds
open QueryGateway.Proofs.Success (map_error map_ok)
open QueryGateway.Proofs.Tool.Envelopes
open QueryGateway.Proofs.Tool.Selections

variable {α : Type} {p : Prospect} {events : List Event} {d : Dispatcher} {now tool : String}
  {context : CallContext} {request : Request} {arguments : Value}

/-! ## Contexts of calls -/

private theorem texts_cons {name : String} {v : Value} (fields : Fields) (h : v ≠ .null) :
    CallContext.texts ((name, v) :: fields) = (do
      let s ← Failure.written (Value.Display.text? v)
      let rest ← CallContext.texts fields
      return (name, s) :: rest) := by
  rw [CallContext.texts]
  exact h

/-- Attributes have texts just where each of them can be written; one that cannot keeps the others
from being told. -/
private theorem texts_ok (fields : Fields) :
    ((∃ texts, CallContext.texts fields = .ok texts) ↔ ∀ e ∈ fields, e.2.isWritable = true) ∧
      ((∃ texts, CallContext.texts fields = .ok texts) ∨
        CallContext.texts fields = .error .unwritable) := by
  induction fields with
  | nil => exact ⟨⟨fun _ => List.forall_mem_nil _, fun _ => ⟨[], rfl⟩⟩, .inl ⟨[], rfl⟩⟩
  | cons e fields ih =>
    obtain ⟨name, v⟩ := e
    rw [List.forall_mem_cons]
    by_cases hnull : v = .null
    · subst hnull
      simpa [CallContext.texts, Value.isWritable] using ih
    rw [texts_cons fields hnull]
    cases hv : v.isWritable with
    | false => simp [written_of_not_writable hv, bind, Except.bind]
    | true =>
      rw [written_of_writable hv]
      obtain ⟨texts, htexts⟩ | hfails := ih.2
      · have hall := ih.1.mp ⟨texts, htexts⟩
        rw [htexts]
        exact ⟨⟨fun _ => ⟨rfl, hall⟩, fun _ => ⟨_, rfl⟩⟩, .inl ⟨_, rfl⟩⟩
      · have hnot : ¬ ∀ e ∈ fields, e.2.isWritable = true := fun h => by
          obtain ⟨texts, htexts⟩ := ih.1.mpr h
          cases hfails.symm.trans htexts
        rw [hfails]
        refine ⟨iff_of_false ?_ fun h => hnot h.2, .inr rfl⟩
        rintro ⟨_, h⟩
        cases h

private theorem request_ok_iff (context : CallContext) :
    (∃ request, context.request = .ok request) ↔
      ∀ e ∈ context.attributes, e.2.isWritable = true := by
  rw [← (texts_ok context.attributes).1]
  constructor
  · rintro ⟨_, h⟩
    obtain ⟨texts, htexts, _⟩ := map_ok.mp h
    exact ⟨texts, htexts⟩
  · rintro ⟨texts, htexts⟩
    exact ⟨_, map_ok.mpr ⟨texts, htexts, rfl⟩⟩

private theorem request_of_not_writable
    (h : ¬ ∀ e ∈ context.attributes, e.2.isWritable = true) :
    context.request = .error .unwritable := by
  obtain ⟨htexts, hends⟩ := texts_ok context.attributes
  exact map_error.mpr (hends.resolve_left (mt htexts.mp h))

/-! ## How calls go -/

private theorem gives_inScope (request : Request) {work : Attempt α} {r : Except Failure α}
    (hwork : Gives work.run p events r) :
    Gives (Dispatcher.inScope request work).run p events (Span.outcome r) := by
  have hbind : ∀ p, Gives (Dispatcher.bindScope request) p [] () :=
    gives_modify (fun _ => rfl) fun _ => rfl
  have hclear : ∀ p, Gives Dispatcher.clearScope p [] () := gives_modify (fun _ => rfl) fun _ => rfl
  have hinner : Gives (do
      let outcome ← ExceptT.lift work.run
      Dispatcher.clearScope
      ExceptT.mk (pure outcome) : Attempt α).run p (events ++ []) r :=
    hwork.lift.andThen (Gives.andThen (hclear _).lift (gives_pure r _))
  rw [List.append_nil] at hinner
  exact Gives.andThen (m := []) (hbind p).lift (hinner.inSpan _)

private theorem gives_answerFailure (request : Request) (tool : String) (f : Failure)
    (p : Prospect) :
    Gives (Dispatcher.answerFailure request tool f) p [] (ofFailure f) := by
  unfold Dispatcher.answerFailure ofFailure
  cases f.fault? with
  | some g => exact Gives.bind (gives_log _ _ _ _ p) (gives_pure _ _)
  | none => exact Gives.bind (gives_logFailure _ _ _ _ p) (gives_pure _ _)

/-- The envelope that what a call came to is told in. -/
def answer : Except Failure Fields → Fields
  | .ok envelope => envelope
  | .error f => ofFailure f

private theorem answer_outcome (r : Except Failure Fields) :
    answer (Span.outcome r) = answer r := by
  cases r with
  | ok envelope => rfl
  | error f =>
    cases htext : f.text with
    | ok s => rw [Span.outcome, htext]
    | error g =>
      have hfault : f.fault? = none := by
        cases hfault : f.fault? with
        | none => rfl
        | some fault =>
          obtain ⟨s, hs⟩ := hasText_of_fault hfault
          cases hs.symm.trans htext
      have hobstacle : (g.within (some f)).fault? = none := by
        rw [fault?_within]
        exact (text_obstacle htext).fault?
      rw [Span.outcome, htext]
      simp only [answer, ofFailure, hfault, hobstacle]

private theorem gives_answer_of_disabled (hdisabled : d.isEnabled tool = false) (p : Prospect) :
    Gives (d.answer now request tool arguments) p []
      (Operation.unknownTool tool).envelope := by
  have hwork : Gives (if d.isEnabled tool then
      Dispatcher.inScope request (d.carryOut now request tool arguments)
      else throw (.ofFault (Operation.unknownTool tool)) : Attempt Fields).run p []
      (.error (.ofFault (Operation.unknownTool tool))) := by
    rw [hdisabled]
    exact gives_pure _ p
  exact hwork.bind (gives_answerFailure _ tool _ _)

private theorem gives_answer_of_enabled (henabled : d.isEnabled tool = true)
    {r : Except Failure Fields} (h : Gives (d.carryOut now request tool arguments).run p events r) :
    Gives (d.answer now request tool arguments) p events (answer r) := by
  have hwork : Gives (if d.isEnabled tool then
      Dispatcher.inScope request (d.carryOut now request tool arguments)
      else throw (.ofFault (Operation.unknownTool tool)) : Attempt Fields).run p events
      (Span.outcome r) := by
    rw [henabled]
    exact gives_inScope _ h
  rw [← List.append_nil events, ← answer_outcome r]
  refine hwork.bind ?_
  cases Span.outcome r with
  | ok envelope => exact gives_pure envelope _
  | error f => exact gives_answerFailure _ tool f _

private theorem gives_prepare (op : Operation) (p : Prospect) :
    Gives (Engine.prepare request op).run p [] (Plan.ofOperation op) := by
  unfold Engine.prepare
  cases Plan.ofOperation op with
  | ok plan => exact Gives.andThen (gives_log _ _ _ _ p).lift (gives_pure _ _)
  | error f =>
    simp only
    cases f.fault? with
    | some g => exact Gives.andThen (gives_log _ _ _ _ p).lift (gives_pure _ _)
    | none => exact gives_pure _ p

private theorem gives_carryOut_of_unread {f : Failure}
    (hop : Operation.ofTool tool arguments = .error f) (p : Prospect) :
    Gives (d.carryOut now request tool arguments).run p [] (.error f) := by
  unfold Dispatcher.carryOut
  rw [hop]
  exact Gives.stop (gives_pure _ p)

private theorem gives_carryOut_of_uncompiled {op : Operation} {f : Failure}
    (hop : Operation.ofTool tool arguments = .ok op)
    (hplan : Plan.ofOperation op = .error f) (p : Prospect) :
    Gives (d.carryOut now request tool arguments).run p [] (.error f) := by
  have hprepare : Gives (Engine.prepare request op).run p [] _ := gives_prepare op p
  rw [hplan] at hprepare
  unfold Dispatcher.carryOut
  rw [hop]
  exact Gives.andThen (m := []) (gives_pure _ p)
    (Gives.andThen (m := []) (gives_log _ _ _ _ p).lift hprepare.stop)

private theorem gives_carryOut_of_compiled {op : Operation} {plan : Plan}
    {r : Except Failure Result} (hop : Operation.ofTool tool arguments = .ok op)
    (hplan : Plan.ofOperation op = .ok plan)
    (hrun : Gives (d.engine.run request plan).run p events r) :
    Gives (d.carryOut now request tool arguments).run p events
      (r.map (Tool.Envelope.ofResult now op)) := by
  have hprepare : Gives (Engine.prepare request op).run p [] _ := gives_prepare op p
  rw [hplan] at hprepare
  have hrest : Gives (do
      let result ← d.engine.run request plan
      return Tool.Envelope.ofResult now op result : Attempt Fields).run p events
      (r.map (Tool.Envelope.ofResult now op)) := by
    cases r with
    | error f => exact hrun.stop
    | ok result =>
      rw [← List.append_nil events]
      exact hrun.andThen (gives_pure _ _)
  unfold Dispatcher.carryOut
  rw [hop]
  exact Gives.andThen (m := []) (gives_pure _ p)
    (Gives.andThen (m := []) (gives_log _ _ _ _ p).lift (hprepare.andThen hrest))

/-! ## What calls are answered -/

private theorem succeeds_of_run {e : Engine} {op : Operation} {plan : Plan} {result : Result}
    (s : Session) (hplan : Plan.ofOperation op = .ok plan)
    (hrun : (course (e.run request plan).run s).1 = .ok result) :
    Succeeds (Tool.Envelope.ofResult now op result) := by
  refine succeeds_ofResult fun action table hop => ?_
  subst hop
  obtain ⟨_, inquiry, hinquiry⟩ := kind_ofUtility hplan
  exact yields_run request hinquiry s result hrun

/-- How a request for a tool is answered in some session, and what the session has become then. The
envelope is of one of the two kinds. A name that is not enabled is refused by its code, and so are
arguments that make up no operation and operations that have no plan, all without a call of the
database. Any other call is carried out as the operation that the tool stands for: what the engine
does with its plan is all that happens, and what comes of it is told. -/
structure FailsClosed (d : Dispatcher) (now : String) (request : Request) (tool : String)
    (arguments : Value) (s : Session) (envelope : Fields) (t : Session) : Prop where
  formed : Succeeds envelope ∨ Fails envelope
  disabled : d.isEnabled tool = false →
    envelope.get? "code" = some (.text "VALIDATION_008") ∧ Fails envelope ∧ t.journal = s.journal
  unread : ∀ f, Operation.ofTool tool arguments = .error f →
    Fails envelope ∧ t.journal = s.journal
  uncompiled : ∀ op f, Operation.ofTool tool arguments = .ok op →
    Plan.ofOperation op = .error f → Fails envelope ∧ t.journal = s.journal
  carriedOut : ∀ op plan, d.isEnabled tool = true →
    Operation.ofTool tool arguments = .ok op → Plan.ofOperation op = .ok plan →
    plan.kind.text = tool ∧ ∃ events r,
      Gives (d.engine.run request plan).run (prospect s) events r ∧
      t.journal = (entries events).reverse ++ s.journal ∧
      envelope = answer (r.map (Tool.Envelope.ofResult now op))

private theorem failsClosed_of_disabled (hdisabled : d.isEnabled tool = false) (s : Session) :
    FailsClosed d now request tool arguments s (course (d.answer now request tool arguments) s).1
      (course (d.answer now request tool arguments) s).2 := by
  have hgives : Gives (d.answer now request tool arguments) (prospect s) []
      (Operation.unknownTool tool).envelope := gives_answer_of_disabled hdisabled _
  obtain ⟨henvelope, _, hjournal⟩ := hgives.course s rfl
  have hfails := fails_envelope (Operation.unknownTool tool)
  rw [henvelope]
  refine ⟨.inr hfails, ?_, ?_, ?_, ?_⟩
  · exact fun _ => ⟨rfl, hfails, hjournal⟩
  · exact fun _ _ => ⟨hfails, hjournal⟩
  · exact fun _ _ _ _ => ⟨hfails, hjournal⟩
  · intro op plan henabled
    rw [hdisabled] at henabled
    cases henabled

private theorem course_answer_of_enabled (henabled : d.isEnabled tool = true)
    {r : Except Failure Fields} {s : Session}
    (hwork : Gives (d.carryOut now request tool arguments).run (prospect s) events r) :
    (course (d.answer now request tool arguments) s).1 = answer r ∧
      (course (d.answer now request tool arguments) s).2.journal =
        (entries events).reverse ++ s.journal := by
  obtain ⟨henvelope, _, hjournal⟩ := (gives_answer_of_enabled henabled hwork).course s rfl
  exact ⟨henvelope, hjournal⟩

private theorem failsClosed_of_unread (henabled : d.isEnabled tool = true) {f : Failure}
    (hop : Operation.ofTool tool arguments = .error f) (s : Session) :
    FailsClosed d now request tool arguments s (course (d.answer now request tool arguments) s).1
      (course (d.answer now request tool arguments) s).2 := by
  obtain ⟨henvelope, hjournal⟩ :=
    course_answer_of_enabled henabled (s := s) (gives_carryOut_of_unread hop _)
  have hfails := fails_ofFailure f
  rw [henvelope]
  refine ⟨.inr hfails, fun h => ?_, fun _ _ => ⟨hfails, hjournal⟩, ?_, ?_⟩
  · rw [henabled] at h
    cases h
  · exact fun _ _ h => nomatch hop.symm.trans h
  · exact fun _ _ _ h => nomatch hop.symm.trans h

private theorem failsClosed_of_uncompiled (henabled : d.isEnabled tool = true) {op : Operation}
    {f : Failure} (hop : Operation.ofTool tool arguments = .ok op)
    (hplan : Plan.ofOperation op = .error f) (s : Session) :
    FailsClosed d now request tool arguments s (course (d.answer now request tool arguments) s).1
      (course (d.answer now request tool arguments) s).2 := by
  obtain ⟨henvelope, hjournal⟩ :=
    course_answer_of_enabled henabled (s := s) (gives_carryOut_of_uncompiled hop hplan _)
  have hfails := fails_ofFailure f
  rw [henvelope]
  refine ⟨.inr hfails, fun h => ?_, ?_, fun _ _ _ _ => ⟨hfails, hjournal⟩, ?_⟩
  · rw [henabled] at h
    cases h
  · exact fun _ h => nomatch hop.symm.trans h
  · intro op' plan _ h hcompiled
    cases hop.symm.trans h
    cases hplan.symm.trans hcompiled

private theorem failsClosed_of_compiled (henabled : d.isEnabled tool = true) {op : Operation}
    {plan : Plan} (hop : Operation.ofTool tool arguments = .ok op)
    (hplan : Plan.ofOperation op = .ok plan) (s : Session) :
    FailsClosed d now request tool arguments s (course (d.answer now request tool arguments) s).1
      (course (d.answer now request tool arguments) s).2 := by
  -- All that is needed of this is that the run comes to an end.
  have hkeeps : Keeps (Balanced 1) (d.engine.run request plan).run :=
    keeps_run _ plan (Nat.le_refl 1)
  obtain ⟨events, r, hrun, _⟩ := hkeeps (prospect s)
  obtain ⟨henvelope, hjournal⟩ :=
    course_answer_of_enabled henabled (gives_carryOut_of_compiled hop hplan hrun)
  have hkind : plan.kind.text = tool := by
    rw [kind_ofOperation hplan]
    exact kind_ofTool hop
  rw [henvelope]
  refine ⟨?_, fun h => ?_, ?_, ?_, ?_⟩
  · cases r with
    | error f => exact .inr (fails_ofFailure f)
    | ok result => exact .inl (succeeds_of_run s hplan (hrun.course s rfl).1)
  · rw [henabled] at h
    cases h
  · exact fun _ h => nomatch hop.symm.trans h
  · intro op' f h hrefused
    cases hop.symm.trans h
    cases hplan.symm.trans hrefused
  · intro op' plan' _ h hcompiled
    cases hop.symm.trans h
    cases hplan.symm.trans hcompiled
    exact ⟨hkind, events, r, hrun, hjournal, rfl⟩

private theorem failsClosed (d : Dispatcher) (now : String) (request : Request) (tool : String)
    (arguments : Value) (s : Session) :
    FailsClosed d now request tool arguments s (course (d.answer now request tool arguments) s).1
      (course (d.answer now request tool arguments) s).2 := by
  cases henabled : d.isEnabled tool with
  | false => exact failsClosed_of_disabled henabled s
  | true =>
    cases hop : Operation.ofTool tool arguments with
    | error f => exact failsClosed_of_unread henabled hop s
    | ok op =>
      cases hplan : Plan.ofOperation op with
      | error f => exact failsClosed_of_uncompiled henabled hop hplan s
      | ok plan => exact failsClosed_of_compiled henabled hop hplan s

/-- A call that is answered, and as it should be: its context makes a request, and the request is
answered with an envelope. -/
def Answered (d : Dispatcher) (now : String) (context : CallContext) (tool : String)
    (arguments : Value) (s : Session) : Prop :=
  ∃ request envelope, { context with tool := some tool }.request = .ok request ∧
    (course (d.dispatch now context tool arguments).run s).1 = .ok envelope ∧
    FailsClosed d now request tool arguments s envelope
      (course (d.dispatch now context tool arguments).run s).2

private theorem course_dispatch_of_request
    (h : { context with tool := some tool }.request = .ok request) (s : Session) :
    course (d.dispatch now context tool arguments).run s =
      ((.ok (course (d.answer now request tool arguments) s).1),
        (course (d.answer now request tool arguments) s).2) := by
  unfold Dispatcher.dispatch
  rw [h]
  rfl

private theorem course_dispatch_of_unwritable
    (h : { context with tool := some tool }.request = .error .unwritable) (s : Session) :
    course (d.dispatch now context tool arguments).run s = (.error .unwritable, s) := by
  unfold Dispatcher.dispatch
  rw [h]
  rfl

private theorem answered_of_request
    (h : { context with tool := some tool }.request = .ok request) (s : Session) :
    Answered d now context tool arguments s := by
  refine ⟨_, _, h, congrArg Prod.fst (course_dispatch_of_request h s), ?_⟩
  rw [course_dispatch_of_request h s]
  exact failsClosed d now request tool arguments s

private theorem answered_iff (s : Session) : Answered d now context tool arguments s ↔
    ∀ e ∈ context.attributes, e.2.isWritable = true := by
  constructor
  · rintro ⟨request, _, hrequest, -⟩
    exact (request_ok_iff { context with tool := some tool }).mp ⟨request, hrequest⟩
  · intro h
    obtain ⟨request, hrequest⟩ := (request_ok_iff { context with tool := some tool }).mpr h
    exact answered_of_request hrequest s

/-- The dispatcher lets through what is enabled. It shows the tools that are enabled, in the order
of the catalog and each of them once. A call of a tool, enabled or not, is answered as it should be
in every session, just where each attribute of its context can be written; otherwise it fails before
anything else is done. -/
theorem dispatch_failsClosed (engine : Engine) (selection : Selection) (start : Session) :
    let d := (course (Dispatcher.ofSelection engine selection) start).1
    (d.tools.map Tool.name).Sublist (Tool.catalog.map Tool.name) ∧
      (d.tools.map Tool.name).Nodup ∧
      (∀ tool, tool ∈ d.tools.map Tool.name ↔ d.isEnabled tool = true) ∧
      ∀ now context tool arguments s,
        (Answered d now context tool arguments s ↔
          ∀ e ∈ context.attributes, e.2.isWritable = true) ∧
        ((¬ ∀ e ∈ context.attributes, e.2.isWritable = true) →
          course (d.dispatch now context tool arguments).run s = (.error .unwritable, s)) := by
  intro d
  have hd : d = ⟨engine, selection.enabled⟩ := by
    change (course (Dispatcher.ofSelection engine selection) start).1 = _
    rw [course_ofSelection]
  have hsublist : (d.tools.map Tool.name).Sublist (Tool.catalog.map Tool.name) := by
    rw [hd]
    exact (enabled_sublist selection).map Tool.ofKind |>.map Tool.name
  refine ⟨hsublist, hsublist.nodup nodup_catalog, ?_, ?_⟩
  · exact fun tool => (isEnabled_iff d tool).symm
  · intro now context tool arguments s
    refine ⟨answered_iff s, fun hnot => course_dispatch_of_unwritable ?_ s⟩
    exact request_of_not_writable hnot

/-- An attribute that is an integer with too many digits keeps even an enabled tool from being
answered. -/
theorem not_answered_unwritable :
    (course (Dispatcher.ofSelection plainEngine (.named ["list"])) {}).1.isEnabled "list" = true ∧
      ¬ Answered (course (Dispatcher.ofSelection plainEngine (.named ["list"])) {}).1 "now"
        ⟨"r", none, [("n", .int leastTooLong)]⟩ "list" (.object []) {} := by
  refine ⟨by decide +kernel, fun h => ?_⟩
  have hwritable := (answered_iff _).mp h ("n", .int leastTooLong) (List.mem_singleton_self _)
  rw [isWritable_int, isTooLong_leastTooLong] at hwritable
  cases hwritable

end QueryGateway.Proofs.Tool.Dispatching
