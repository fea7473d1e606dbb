import QueryGateway.Engine.Run
import QueryGateway.Proofs.Database.Calls

/-!
The calls that the parts of the engine make, part by part.
-/

set_option autoImplicit false
set_option relaxedAutoImplicit false

namespace QueryGateway.Proofs.Engine.Calls

open QueryGateway.Database
open QueryGateway.Engine
open QueryGateway.Proofs.Database.Calls

variable {α : Type} {sort : Call → Prop} {e : Engine} {connection : Nat}

/-! ## Silent parts -/

theorem only_logFor (request : Request) (level : Log.Level) (message : String) (fields : Fields) :
    Only sort (logFor request level message fields) :=
  only_log _ _ _ _

private theorem only_orFailure (x : Except Failure α) : Only sort (orFailure x).run := by
  cases x with
  | error f => exact only_throw f
  | ok a => exact only_ok a

/-! ## Connections -/

private theorem only_makePool (hpool : ∀ url options, sort (.createPool url options)) :
    Only sort e.makePool.run := by
  refine Only.andThen (only_orFailure _) fun options => ?_
  refine Only.andThen (Only.lift (only_call (hpool _ _))) fun made => ?_
  cases made with
  | error f => exact only_throw _
  | ok reply =>
    refine Only.andThen (Only.lift (only_modify fun _ => rfl)) fun _ => ?_
    exact Only.lift (only_log _ _ _ _)

private theorem only_ensurePool (hpool : ∀ url options, sort (.createPool url options)) :
    Only sort e.ensurePool.run := by
  refine Only.andThen only_get.lift fun s => ?_
  cases s.hasPool with
  | true => exact only_ok ()
  | false => exact only_makePool hpool

theorem only_connect (hpool : ∀ url options, sort (.createPool url options))
    (hcheckOut : ∀ c, sort (.checkOut c)) : Only sort e.connect.run :=
  Only.andThen (only_ensurePool hpool) fun _ => only_checkOut hcheckOut

/-! ## Statements -/

private theorem only_execute (hexecute : ∀ sql params, sort (.execute connection sql params))
    (s : Statement) : Only sort (e.execute connection s).run := by
  refine Only.andThen (only_orFailure _) fun _ => ?_
  split
  · exact Only.andThen (only_call (hexecute _ _)) fun reply => only_orFailure _
  · refine Only.andThen (only_orFailure _) fun sql => ?_
    exact Only.andThen (only_call (hexecute _ _)) fun reply => only_orFailure _

theorem only_runStatements (hexecute : ∀ sql params, sort (.execute connection sql params))
    (ss : List Statement) (result : Result) :
    Only sort (e.runStatements connection result ss).run := by
  induction ss generalizing result with
  | nil => exact only_ok result
  | cons s ss ih => exact Only.andThen (only_execute hexecute s) fun outcome => ih _

private theorem only_runStep (hexecute : ∀ sql params, sort (.execute connection sql params))
    (request : Request) (number : Nat) (s : Statement) :
    Only sort (e.runStep request connection number s).run := by
  refine Only.andThen (Only.lift (only_logFor _ _ _ _)) fun _ => ?_
  refine Only.andThen (Only.lift (only_execute hexecute s)) fun outcome => ?_
  cases outcome with
  | ok r => exact only_ok r
  | error f =>
    refine Only.andThen (only_orFailure _) fun g => ?_
    exact Only.andThen (Only.lift (only_logFor _ _ _ _)) fun _ => only_throw _

theorem only_runSteps (hexecute : ∀ sql params, sort (.execute connection sql params))
    (request : Request) (ss : List Statement) (number : Nat) (result : Result) :
    Only sort (e.runSteps request connection result number ss).run := by
  induction ss generalizing number result with
  | nil => exact only_ok result
  | cons s ss ih =>
    exact Only.andThen (only_runStep hexecute request number s) fun outcome => ih _ _

end QueryGateway.Proofs.Engine.Calls
