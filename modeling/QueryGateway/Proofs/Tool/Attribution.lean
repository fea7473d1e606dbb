import QueryGateway.Proofs.Engine.Attribution
import QueryGateway.Proofs.Engine.Commits
import QueryGateway.Tool.Dispatcher

/-!
Records belong to their calls. However a call of a tool ends, what is logged during it carries its
number and no other name than that of its tool, and what is logged outside of calls carries nothing
that is left from them.
-/

set_option autoImplicit false
set_option relaxedAutoImplicit false

namespace QueryGateway.Proofs.Tool.Attribution

open QueryGateway.Database
open QueryGateway.Proofs.Database.Calls (course)
open QueryGateway.Proofs.Database.Records
open QueryGateway.Proofs.Engine.Attribution
open QueryGateway.Proofs.Engine.Commits (plainEngine)

variable {α : Type} {sort : Log.Record → Prop} {d : Dispatcher} {now tool : String}
  {context : CallContext} {request : Request} {arguments : Value}

/-! ## Single calls -/

private theorem writes_inScope {work : Attempt α}
    (hwork : Writes sort (Log.Scope.empty.bind (some request.id) request.tool)
      (Log.Scope.empty.bind (some request.id) request.tool) work.run) :
    Writes sort Log.Scope.empty Log.Scope.empty (Dispatcher.inScope request work).run := by
  have hbind : Writes sort Log.Scope.empty (Log.Scope.empty.bind (some request.id) request.tool)
      (Dispatcher.bindScope request) := by
    intro s hs
    refine ⟨?_, [], rfl, List.forall_mem_nil _⟩
    rw [← hs]
    rfl
  have hclear : ∀ a, Writes sort a Log.Scope.empty Dispatcher.clearScope :=
    fun a s _ => ⟨rfl, [], rfl, List.forall_mem_nil _⟩
  refine Writes.afterLift hbind fun _ => Writes.inSpan _ ?_
  exact Writes.afterLift hwork fun outcome => Writes.afterLift (hclear _) fun _ =>
    writes_pure outcome

private theorem writes_carryOut {a : Log.Scope} (ha : a.requestId = some request.id) :
    Writes (About request a) a a (d.carryOut now request tool arguments).run := by
  refine Writes.andThen (writes_orFailure (Operation.ofTool tool arguments)) fun op => ?_
  refine Writes.andThen (writes_logAbout request _ _ _ (plain_telemetry op)).lift fun _ => ?_
  refine Writes.andThen (writes_prepare op) fun plan => ?_
  exact Writes.andThen (writes_run ha plan) fun result => writes_ok _

private theorem writes_answerFailure {a : Log.Scope} (f : Failure) :
    Writes (About request a) a a (Dispatcher.answerFailure request tool f) := by
  unfold Dispatcher.answerFailure
  split
  · exact Writes.bind (writes_logAbout request _ _ _ rfl) fun _ => writes_pure _
  · refine Writes.bind (writes_logging _ ?_) fun _ => writes_pure _
    exact carries_of_own (ownRequest?_telemetry request rfl _ _ _ _)

/-- What is demanded of records of a call: they carry its number, and its tool or none. -/
def OfCall (id tool : String) (r : Log.Record) : Prop :=
  Carries (some id) (some tool) r ∨ Carries (some id) none r

private theorem writes_answer (htool : request.tool = some tool) :
    Writes (OfCall request.id tool) Log.Scope.empty Log.Scope.empty
      (d.answer now request tool arguments) := by
  have hwork : Writes (OfCall request.id tool) Log.Scope.empty Log.Scope.empty
      (if d.isEnabled tool then
        Dispatcher.inScope request (d.carryOut now request tool arguments)
      else throw (.ofFault (Operation.unknownTool tool)) : Attempt Fields).run := by
    split
    · obtain ⟨id, _, attributes⟩ := request
      cases htool
      exact (writes_inScope (writes_carryOut rfl)).mono fun _ h => .inl h
    · exact writes_throw _
  refine Writes.bind hwork fun outcome => ?_
  cases outcome with
  | ok envelope => exact writes_pure envelope
  | error f => exact (writes_answerFailure f).mono fun _ h => .inr h

/-- A context that makes no request writes nothing; the request of any other has its number. -/
private theorem writes_dispatch :
    Writes (OfCall context.id tool) Log.Scope.empty Log.Scope.empty
      (d.dispatch now context tool arguments).run := by
  unfold Dispatcher.dispatch CallContext.request
  cases CallContext.texts context.attributes with
  | error f => exact writes_throw f
  | ok texts => exact (writes_answer rfl).lift

/-! ## One call after another -/

/-- What happens one after another: calls of tools, and records that others write between them. -/
inductive Step
  | call (d : Dispatcher) (now : String) (context : CallContext) (tool : String) (arguments : Value)
  | remark (r : Log.Record)

/-- Takes a step and drops the answer, if there is one. -/
def Step.perform : Step → Run Unit
  | .call d now context tool arguments => do
    let _ ← (d.dispatch now context tool arguments).run
  | .remark r => modify fun s => s.logging r

/-- What is demanded of the records of a step. Outside of calls a record carries neither a number
nor a tool, unless it brings a number along. -/
def Step.Marks : Step → Log.Record → Prop
  | .call _ _ context tool _, r => OfCall context.id tool r
  | .remark own, r => own.ownRequest? = none → Carries none none r

def performAll : List Step → Run Unit
  | [] => pure ()
  | step :: rest => do
    step.perform
    performAll rest

/-- Steps with the records that each of them writes. No scope is left when a step begins, and none
at the end. -/
inductive Logged : Session → List Step → List (List Log.Record) → Prop
  | nil {s : Session} : s.scope = Log.Scope.empty → Logged s [] []
  | cons {s : Session} {step : Step} {rest : List Step} {part : List Log.Record}
      {parts : List (List Log.Record)} : s.scope = Log.Scope.empty →
      (course step.perform s).2.records = part ++ s.records → (∀ r ∈ part, step.Marks r) →
      Logged (course step.perform s).2 rest parts → Logged s (step :: rest) (part :: parts)

private theorem writes_perform (step : Step) :
    Writes step.Marks Log.Scope.empty Log.Scope.empty step.perform := by
  cases step with
  | call d now context tool arguments =>
    exact Writes.bind writes_dispatch fun _ => writes_pure ()
  | remark own => exact writes_logging own fun h =>
    carries_of_ownless (a := Log.Scope.empty) h

/-- Records belong to their calls. Where no scope is left from before, each step finds none and
leaves none, whatever it comes to. What is logged during a call carries the number of that call, and
its tool or none; what is logged between calls carries neither number nor tool. -/
theorem records_belong_to_calls (steps : List Step) (s : Session)
    (hscope : s.scope = Log.Scope.empty) :
    ∃ parts, Logged s steps parts ∧
      (course (performAll steps) s).2.scope = Log.Scope.empty ∧
      (course (performAll steps) s).2.records = parts.reverse.flatten ++ s.records := by
  induction steps generalizing s with
  | nil => exact ⟨[], .nil hscope, hscope, rfl⟩
  | cons step rest ih =>
    obtain ⟨hafter, part, hpart, hmarks⟩ := writes_perform step s hscope
    obtain ⟨parts, hlogged, hend, hrecords⟩ := ih (course step.perform s).2 hafter
    refine ⟨part :: parts, .cons hscope hpart hmarks hlogged, hend, ?_⟩
    have hrest : (course (performAll (step :: rest)) s).2.records =
        (course (performAll rest) (course step.perform s).2).2.records := rfl
    rw [hrest, hrecords, hpart, List.reverse_cons, List.flatten_append, List.append_assoc,
      List.flatten_singleton]

/-- Tables are listed, something is remarked, and a tool is asked for that is not enabled. -/
def mixed : List Step :=
  [.call ⟨plainEngine, [.list]⟩ "now" ⟨"first", none, []⟩ "list" (.object []),
   .remark { level := .info, logger := "clock", message := "tick" },
   .call ⟨plainEngine, [.list]⟩ "now" ⟨"second", none, []⟩ "delete" (.object [])]

theorem records_belong_to_calls_mixed :
    ({} : Session).scope = Log.Scope.empty ∧
      (course (performAll mixed) {}).2.records.map
          (fun r => (r.fields.get? "request_id").bind Value.Display.text?) =
        some "second" :: some "None" :: List.replicate 4 (some "first") ∧
      ∃ parts, Logged {} mixed parts ∧
        (course (performAll mixed) {}).2.scope = Log.Scope.empty ∧
        (course (performAll mixed) {}).2.records =
          parts.reverse.flatten ++ ({} : Session).records :=
  ⟨rfl, by decide +kernel, records_belong_to_calls mixed {} rfl⟩

end QueryGateway.Proofs.Tool.Attribution
