import Mathlib.Algebra.Ring.Int.Defs
import QueryGateway.Proofs.Engine.Courses

/-!
Results put together. Whatever statements gave, the result of a plan holds the sum of their rows,
the latest number of a new row and the latest rows; the steps of a transaction are listed besides.
-/

set_option autoImplicit false
set_option relaxedAutoImplicit false

namespace QueryGateway.Proofs.Engine.Results

open QueryGateway.Engine
open QueryGateway.Proofs.Engine.Courses (withSteps)

variable {α : Type}

/-! ## The latest of several -/

def latestOr (earlier : Option α) (xs : List (Option α)) : Option α :=
  (xs.filterMap id).getLast?.or earlier

private theorem latestOr_cons (earlier x : Option α) (xs : List (Option α)) :
    latestOr earlier (x :: xs) = latestOr (x.or earlier) xs := by
  cases x with
  | none => rfl
  | some a =>
    have hcut : (some a :: xs).filterMap id = a :: xs.filterMap id := rfl
    rw [latestOr, hcut, List.getLast?_cons, latestOr]
    cases (xs.filterMap id).getLast? <;> rfl

/-! ## Statements -/

def together (result : Result) (rs : List StatementResult) : Result :=
  { result with
    affectedRows := result.affectedRows + (rs.map StatementResult.affectedRows).sum
    insertId := latestOr result.insertId (rs.map StatementResult.insertId)
    rows := (latestOr none (rs.map StatementResult.rows)).getD result.rows
    returnsRows := result.returnsRows || rs.any fun r => r.rows.isSome }

private theorem together_nil (result : Result) : together result [] = result := by
  simp [together, latestOr]

private theorem together_cons (result : Result) (r : StatementResult) (rs : List StatementResult) :
    together result (r :: rs) = together (result.adding r) rs := by
  have hrows : (latestOr r.rows (rs.map StatementResult.rows)).getD result.rows =
      (latestOr none (rs.map StatementResult.rows)).getD (r.rows.getD result.rows) := by
    unfold latestOr
    cases ((rs.map StatementResult.rows).filterMap id).getLast? <;> simp
  have hid : r.insertId.or result.insertId = r.insertId.orElse fun _ => result.insertId := by
    cases r.insertId <;> rfl
  simp only [together, List.map_cons, List.sum_cons, latestOr_cons, Option.or_none, hrows, hid,
    Result.adding, List.any_cons, Int.add_assoc, Bool.or_assoc]

private theorem foldl_adding (result : Result) (rs : List StatementResult) :
    rs.foldl Result.adding result = together result rs := by
  induction rs generalizing result with
  | nil => exact (together_nil result).symm
  | cons r rs ih => rw [List.foldl_cons, ih, together_cons]

/-! ## Steps -/

def stepsFrom : Nat → List Statement → List StatementResult → List StepResult
  | number, s :: ss, r :: rs =>
    ⟨number, s.description, r.affectedRows, r.insertId⟩ :: stepsFrom (number + 1) ss rs
  | _, _, _ => []

/-- A result to which steps are added holds what the statements gave, and the steps behind those
that it had. -/
private theorem withSteps_eq {ss : List Statement} {rs : List StatementResult}
    (h : ss.length = rs.length)
    (result : Result) (number : Nat) : withSteps result number ss rs =
      { together result rs with steps := result.steps ++ stepsFrom number ss rs } := by
  induction ss generalizing rs result number with
  | nil =>
    obtain rfl : rs = [] := List.length_eq_zero_iff.mp h.symm
    simp [withSteps, stepsFrom, together_nil]
  | cons s ss ih =>
    cases rs with
    | nil => cases h
    | cons r rs =>
      have hrest := ih (Nat.succ.inj h) (result.addingStep number s.description r) (number + 1)
      have hstep : (result.addingStep number s.description r).steps =
          result.steps ++ [⟨number, s.description, r.affectedRows, r.insertId⟩] := rfl
      have hsum : ∀ steps, { together (result.addingStep number s.description r) rs with
            steps := steps } = { together (result.adding r) rs with steps := steps } :=
        fun _ => rfl
      rw [withSteps, hrest, hstep, hsum, together_cons, stepsFrom, List.append_assoc,
        List.singleton_append]

theorem getElem?_stepsFrom {ss : List Statement} {rs : List StatementResult} (number i : Nat)
    {s : Statement} {r : StatementResult} (hs : ss[i]? = some s) (hr : rs[i]? = some r) :
    (stepsFrom number ss rs)[i]? =
      some ⟨number + i, s.description, r.affectedRows, r.insertId⟩ := by
  induction ss generalizing rs number i with
  | nil => cases hs
  | cons s' ss ih =>
    cases rs with
    | nil => cases hr
    | cons r' rs =>
      cases i with
      | zero =>
        cases hs
        cases hr
        rfl
      | succ i =>
        have hrest := ih (number + 1) i hs hr
        have hnumber : number + 1 + i = number + (i + 1) := by omega
        rw [hnumber] at hrest
        exact hrest

theorem length_stepsFrom {ss : List Statement} {rs : List StatementResult}
    (h : ss.length = rs.length) (number : Nat) : (stepsFrom number ss rs).length = ss.length := by
  induction ss generalizing rs number with
  | nil => cases rs <;> rfl
  | cons s ss ih =>
    cases rs with
    | nil => cases h
    | cons r rs => rw [stepsFrom, List.length_cons, ih (Nat.succ.inj h), List.length_cons]

theorem affectedRows_stepsFrom {ss : List Statement} {rs : List StatementResult}
    (h : ss.length = rs.length) (number : Nat) :
    (stepsFrom number ss rs).map StepResult.affectedRows =
      rs.map StatementResult.affectedRows := by
  induction ss generalizing rs number with
  | nil =>
    obtain rfl : rs = [] := List.length_eq_zero_iff.mp h.symm
    rfl
  | cons s ss ih =>
    cases rs with
    | nil => cases h
    | cons r rs => rw [stepsFrom, List.map_cons, ih (Nat.succ.inj h), List.map_cons]

/-! ## Plans -/

variable {plan : Plan} {rs : List StatementResult}

/-- What the statements of a plan gave, put together: the sum of the rows that they changed, the
latest number of a new row and the latest rows. A transaction lists its steps besides. -/
def resultFrom (plan : Plan) (rs : List StatementResult) : Result :=
  { together { kind := plan.kind } rs with
    steps := if plan.transactional then stepsFrom 1 plan.statements rs else [] }

theorem withSteps_eq_resultFrom (h : plan.statements.length = rs.length)
    (htransactional : plan.transactional = true) :
    withSteps { kind := plan.kind } 1 plan.statements rs = resultFrom plan rs := by
  rw [withSteps_eq h, resultFrom, htransactional]
  rfl

theorem foldl_eq_resultFrom (rs : List StatementResult) (hsingle : plan.transactional = false) :
    rs.foldl Result.adding { kind := plan.kind } = resultFrom plan rs := by
  rw [foldl_adding, resultFrom, hsingle]
  rfl

end QueryGateway.Proofs.Engine.Results
