import Mathlib.Algebra.Order.BigOperators.Group.List
import QueryGateway.Proofs.Engine.Policy
import QueryGateway.Proofs.Engine.Results
import QueryGateway.Proofs.Plan.Steps
import QueryGateway.Tool.Envelope

/-!
Results that account for every statement. The database reports rows of a statement, or how many rows
it changed and the number of a new one; the result of a plan is put together from all reports of the
attempt that succeeded, and so are its steps and the envelope of a transaction.
-/

set_option autoImplicit false
set_option relaxedAutoImplicit false

namespace QueryGateway.Proofs.Engine.Accounts

open QueryGateway.Database
open QueryGateway.Engine
open QueryGateway.Plan
open QueryGateway.Tool
open QueryGateway.Proofs.Database.Calls (course)
open QueryGateway.Proofs.Database.Events
open QueryGateway.Proofs.Engine.Attempts
open QueryGateway.Proofs.Engine.Commits (plainEngine)
open QueryGateway.Proofs.Engine.Courses
open QueryGateway.Proofs.Engine.Policy
open QueryGateway.Proofs.Engine.Results
open QueryGateway.Proofs.Plan.Steps
open QueryGateway.Proofs.Retry.Tries
open QueryGateway.Proofs.Success (ok_getD)

variable {e : Engine} {plan : Plan} {c : Nat} {reply : Reply} {replies : List Reply}

/-! ## Reports -/

/-- The number of a new row is a whole number if the database reports one. -/
def HasWholeId (reply : Reply) : Prop :=
  reply.insertId = .null ∨ ∃ n, reply.insertId = .int n

def counting (replies : List Reply) : List Reply := replies.filter fun reply => reply.rows.isNone

/-- The rows that a statement changed, none where their number is missing or negative. -/
def changed (reply : Reply) : Int := max (reply.rowCount.getD 0) 0

def newId (reply : Reply) : Option Int :=
  match reply.insertId with
  | .int n => if n = 0 then none else some n
  | _ => none

def given (reply : Reply) : StatementResult :=
  match reply.rows with
  | some rows => { rows := some rows }
  | none => { affectedRows := changed reply, insertId := newId reply }

private theorem insertIdOf_of_hasWholeId (h : HasWholeId reply) :
    insertIdOf reply = .ok (newId reply) := by
  rcases h with hnull | ⟨n, hn⟩
  · simp [insertIdOf, newId, hnull, Value.isTruthy]
  · by_cases hzero : n = 0
    · simp [insertIdOf, newId, hn, hzero, Value.isTruthy]
    · simp [insertIdOf, newId, hn, hzero, Value.isTruthy, Value.Whole.ofValue, Except.map]

private theorem resultOf_of_hasWholeId (h : HasWholeId reply) :
    Engine.resultOf reply = .ok (given reply) := by
  cases hrows : reply.rows with
  | some rows => simp only [Engine.resultOf, given, hrows]
  | none =>
    simp only [Engine.resultOf, given, hrows, insertIdOf_of_hasWholeId h]
    rfl

/-! ## Sums and latest reports -/

private theorem sum_given (replies : List Reply) :
    ((replies.map given).map StatementResult.affectedRows).sum =
      ((counting replies).map changed).sum := by
  induction replies with
  | nil => rfl
  | cons reply replies ih =>
    cases hrows : reply.rows <;> simp_all [counting, given]

private theorem ids_given (replies : List Reply) :
    ((replies.map given).map StatementResult.insertId).filterMap id =
      (counting replies).filterMap newId := by
  induction replies with
  | nil => rfl
  | cons reply replies ih =>
    cases hrows : reply.rows <;> simp_all [counting, given, List.filterMap_cons]

private theorem rows_given (reply : Reply) : (given reply).rows = reply.rows := by
  cases hrows : reply.rows <;> simp [given, hrows]

/-- A result lists the statements of a plan as steps, in order and numbered from one. -/
structure ListsSteps (plan : Plan) (replies : List Reply) (r : Result) : Prop where
  length : r.steps.length = plan.statements.length
  step : ∀ (i : Nat) (s : Statement) (reply : Reply), plan.statements[i]? = some s →
    replies[i]? = some reply → r.steps[i]? =
      some ⟨i + 1, s.description, (given reply).affectedRows, (given reply).insertId⟩
  sum : r.affectedRows = (r.steps.map StepResult.affectedRows).sum

/-- A result accounts for the replies to the statements of a plan. -/
structure AccountsFor (plan : Plan) (replies : List Reply) (r : Result) : Prop where
  affectedRows : r.affectedRows = ((counting replies).map changed).sum
  nonneg : 0 ≤ r.affectedRows
  insertId : r.insertId = ((counting replies).filterMap newId).getLast?
  rows : r.rows = (replies.filterMap Reply.rows).getLast?.getD []
  returnsRows : r.returnsRows = true ↔ ∃ reply ∈ replies, reply.rows.isSome = true
  steps : plan.transactional = true → ListsSteps plan replies r
  noSteps : plan.transactional = false → r.steps = []

private theorem affectedRows_resultFrom (plan : Plan) (replies : List Reply) :
    (resultFrom plan (replies.map given)).affectedRows = ((counting replies).map changed).sum :=
  (Int.zero_add _).trans (sum_given replies)

private theorem changed_sum_nonneg (replies : List Reply) : 0 ≤ (replies.map changed).sum := by
  refine List.sum_nonneg fun n hn => ?_
  obtain ⟨reply, _, rfl⟩ := List.mem_map.mp hn
  exact le_max_right _ _

private theorem listsSteps_resultFrom (h : plan.statements.length = (replies.map given).length)
    (htransactional : plan.transactional = true) :
    ListsSteps plan replies (resultFrom plan (replies.map given)) := by
  have hsteps : (resultFrom plan (replies.map given)).steps =
      stepsFrom 1 plan.statements (replies.map given) := by
    rw [resultFrom, htransactional]
    rfl
  refine ⟨?_, fun i s reply hs hreply => ?_, ?_⟩
  · rw [hsteps, length_stepsFrom h]
  · have hgiven : (replies.map given)[i]? = some (given reply) := by simp [hreply]
    rw [hsteps, getElem?_stepsFrom 1 i hs hgiven, Nat.add_comm]
  · rw [hsteps, affectedRows_stepsFrom h, sum_given, affectedRows_resultFrom]

private theorem accountsFor_resultFrom (h : plan.statements.length = replies.length) :
    AccountsFor plan replies (resultFrom plan (replies.map given)) := by
  have hlength : plan.statements.length = (replies.map given).length := by rw [h, List.length_map]
  have hsum := affectedRows_resultFrom plan replies
  have hid : latestOr none ((replies.map given).map StatementResult.insertId) =
      ((counting replies).filterMap newId).getLast? := by
    rw [latestOr, ids_given, Option.or_none]
  have hrows : latestOr none ((replies.map given).map StatementResult.rows) =
      (replies.filterMap Reply.rows).getLast? := by
    have hsame : StatementResult.rows ∘ given = Reply.rows := funext rows_given
    rw [latestOr, List.map_map, hsame, List.filterMap_map, Function.id_comp, Option.or_none]
  refine ⟨hsum, ?_, ?_, ?_, ?_, listsSteps_resultFrom hlength, fun hsingle => ?_⟩
  · rw [hsum]
    exact changed_sum_nonneg _
  all_goals unfold resultFrom
  · exact hid
  · exact congrArg (Option.getD · []) hrows
  · change (false || (replies.map given).any fun r => r.rows.isSome) = true ↔ _
    simp [rows_given]
  · rw [hsingle]
    rfl

/-! ## Replies to statements -/

/-- Statements executed in turn on a connection, with the reply to each. -/
inductive Answered (e : Engine) (c : Nat) : List Statement → List Event → List Reply → Prop
  | nil : Answered e c [] [] []
  | cons {s : Statement} {ss : List Statement} {x : Call} {m : List Event} {reply : Reply}
      {replies : List Reply} : executionOf e.server.dialect c s = .ok x →
      Answered e c ss m replies → Answered e c (s :: ss) (⟨x, .done reply⟩ :: m) (reply :: replies)

theorem Answered.length_eq {ss : List Statement} {m : List Event}
    (h : Answered e c ss m replies) : ss.length = replies.length := by
  induction h with
  | nil => rfl
  | cons _ _ ih => rw [List.length_cons, List.length_cons, ih]

private theorem kindOf_of_executionOf {d : Dialect} {s : Statement} {x : Call}
    (h : executionOf d c s = .ok x) : kindOf x = some .execute := by
  obtain ⟨sql, params, rfl⟩ := exists_of_executionOf h
  rfl

private theorem exists_reply {s : Statement} {m : List Event} {r : StatementResult}
    (h : Carried e c s m (.ok r)) :
    ∃ x reply, executionOf e.server.dialect c s = .ok x ∧ m = [⟨x, .done reply⟩] ∧
      Engine.resultOf reply = .ok r := by
  generalize hy : (Except.ok r : Except Failure StatementResult) = y at h
  cases h with
  | unmet _ => cases hy
  | unwritten _ _ => cases hy
  | @executed x o _ hcall =>
    cases o with
    | failed f => cases hy
    | done reply => exact ⟨x, reply, hcall, rfl, rfl⟩

def ReportWholeIds (events : List Event) : Prop :=
  ∀ ev ∈ events, kindOf ev.call = some .execute → ∀ reply, ev.outcome = .done reply →
    HasWholeId reply

private theorem exists_answered {ss : List Statement} {m : List Event} {rs : List StatementResult}
    (h : Ran e c ss m rs) (hids : ReportWholeIds m) :
    ∃ replies, Answered e c ss m replies ∧ rs = replies.map given := by
  induction h with
  | nil => exact ⟨[], .nil, rfl⟩
  | cons hs _ ih =>
    obtain ⟨hfirst, hrest⟩ := List.forall_mem_append.mp hids
    obtain ⟨replies, hreplies, rfl⟩ := ih hrest
    obtain ⟨x, reply, hcall, rfl, hread⟩ := exists_reply hs
    have hid : HasWholeId reply :=
      List.forall_mem_singleton.mp hfirst (kindOf_of_executionOf hcall) reply rfl
    rw [resultOf_of_hasWholeId hid] at hread
    cases hread
    exact ⟨reply :: replies, .cons hcall hreplies, rfl⟩

private theorem reportWholeIds_of_script {p : Prospect} {events : List Event} (h : p.Allows events)
    (hids : ∀ reply, .done reply ∈ p.script .execute → HasWholeId reply) :
    ReportWholeIds events := by
  intro ev hev hkind reply hreply
  rcases outcome_mem_script h ev hev hkind with hmem | hplain
  · rw [hreply] at hmem
    exact hids reply hmem
  · rw [hreply] at hplain
    cases hplain
    exact .inl rfl

/-! ## Runs -/

/-- Events in which the statements of a plan were executed in turn, each with its reply, and no
statement was executed behind them. -/
def EndsWith (e : Engine) (plan : Plan) (events : List Event) (replies : List Reply) : Prop :=
  ∃ c front m back, events = front ++ (m ++ back) ∧ Answered e c plan.statements m replies ∧
    ∀ ev ∈ back, kindOf ev.call ≠ some .execute

theorem EndsWith.behind {events : List Event} (h : EndsWith e plan events replies)
    (before : List Event) : EndsWith e plan (before ++ events) replies := by
  obtain ⟨c, front, m, back, rfl, hm, hback⟩ := h
  exact ⟨c, before ++ front, m, back, by simp, hm, hback⟩

private theorem exists_inRow_append (unit : Number.Binary64) (number : Nat) {α : Type}
    (front : List (Try α)) (t : Try α) :
    ∃ before, inRow unit number (front ++ [t]) = before ++ t.events := by
  induction front generalizing number with
  | nil => exact ⟨[], rfl⟩
  | cons u front ih =>
    obtain ⟨before, hbefore⟩ := ih (number + 1)
    refine ⟨u.events ++ pauseAfter unit number :: before, ?_⟩
    have hnext : inRow unit number (u :: (front ++ [t])) =
        u.events ++ pauseAfter unit number :: inRow unit (number + 1) (front ++ [t]) := by
      cases front <;> rfl
    rw [List.cons_append, hnext, hbefore, List.append_assoc, List.cons_append]

/-- What an attempt gives if it succeeds: the result that its statements come to. -/
def EndsInResult (e : Engine) (plan : Plan) (events : List Event) (y : Except Failure Result) :
    Prop :=
  ∀ r, y = .ok r → ∃ c front m back rs, events = front ++ (m ++ back) ∧
    (∀ ev ∈ back, kindOf ev.call ≠ some .execute) ∧ Ran e c plan.statements m rs ∧
    r = resultFrom plan rs

private theorem endsInResult_attempt (hinquiry : plan.inquiry = none) (request : Request)
    (q : Prospect) :
    ∃ events y, Gives (e.attempt request plan) q events y ∧ EndsInResult e plan events y := by
  obtain ⟨events, x, hwork, hheld⟩ := unfolds_attemptWork e request plan q
  refine ⟨events, _, gives_attempt hwork, fun r hr => ?_⟩
  cases x with
  | error f => cases hr
  | ok r' =>
    cases hr
    exact ran_of_held hinquiry hheld

private theorem exists_endsWith {request : Request} {s : Session} {r : Result}
    (hinquiry : plan.inquiry = none)
    (hids : ∀ reply, .done reply ∈ s.script .execute → HasWholeId reply)
    (hrun : (course (e.run request plan).run s).1 = .ok r) :
    ∃ events replies number, Gives (e.run request plan).run (prospect s) events (.ok r) ∧
      EndsWith e plan events replies ∧
      r = { resultFrom plan (replies.map given) with attempts := number } := by
  have hping : isPing plan = false := by rw [isPing, hinquiry]
  obtain ⟨tries, t, hrow, hgives⟩ :=
    gives_run hping (endsInResult_attempt hinquiry request) (prospect s)
  obtain ⟨hresult, _, _⟩ := hgives.course s rfl
  rw [hrun] at hresult
  rw [← hresult] at hgives
  obtain ⟨r', hy, -, rfl⟩ := answered_eq_ok.mp hresult.symm
  -- No attempt follows one that succeeds, so its replies are the last ones.
  obtain ⟨_, hlast⟩ := hrow.rule_of_mem t (by simp)
  obtain ⟨c, front, m, back, rs, hcut, hback, hran, rfl⟩ := hlast r' hy
  obtain ⟨before, hbefore⟩ := exists_inRow_append e.settings.retryDelay 1 tries t
  rw [hbefore] at hgives
  have hwhole := reportWholeIds_of_script hgives.allowed hids
  have hm : ReportWholeIds m := fun ev hev => hwhole ev (by simp [hcut, hev])
  obtain ⟨replies, hreplies, rfl⟩ := exists_answered hran hm
  have hends : EndsWith e plan t.events replies := ⟨c, front, m, back, hcut, hreplies, hback⟩
  exact ⟨_, replies, _, hgives, hends.behind before, rfl⟩

/-! ## Envelopes -/

def ListsOperations (operations : List TransactionStep) (envelope : Fields) : Prop :=
  envelope.get? "operations" = some (.int operations.length) ∧
    ∃ results, envelope.get? "results" = some (.list results) ∧ results.length = operations.length

private theorem length_portableItems (xs : List Value) :
    (Value.portableItems xs).length = xs.length := by
  induction xs with
  | nil => rfl
  | cons x xs ih => rw [Value.portableItems, List.length_cons, ih, List.length_cons]

private theorem lifted_of_ofTransaction {steps : List TransactionStep}
    (h : ofTransaction steps = .ok plan) :
    ∃ ss, Lifted steps ss plan := by
  rcases allAlone_or_firstFailing steps with ⟨ss, hss⟩ | ⟨place, f, hfailing⟩
  · have hne : steps ≠ [] := by
      rintro rfl
      cases h
    obtain ⟨plan', hplan, hlifted⟩ := lifted_of_allAlone hne hss
    rw [hplan] at h
    cases h
    exact ⟨ss, hlifted⟩
  · rw [ofTransaction_of_firstFailing hfailing] at h
    cases h

private theorem listsOperations_of_accountsFor {operations : List TransactionStep} {r : Result}
    (hplan : Plan.ofOperation (.transaction operations) = .ok plan)
    (h : AccountsFor plan replies r) (now : String) :
    ListsOperations operations (Envelope.ofResult now (.transaction operations) r) := by
  obtain ⟨ss, hlifted⟩ := lifted_of_ofTransaction hplan
  refine ⟨rfl, Value.portableItems (r.steps.map Envelope.step), rfl, ?_⟩
  rw [length_portableItems, List.length_map, (h.steps hlifted.transactional).length, hlifted.length]

/-! ## Accounts of runs -/

theorem AccountsFor.answered {r : Result} (h : AccountsFor plan replies r) (number : Nat) :
    AccountsFor plan replies { r with attempts := number } where
  affectedRows := h.affectedRows
  nonneg := h.nonneg
  insertId := h.insertId
  rows := h.rows
  returnsRows := h.returnsRows
  steps := fun htransactional =>
    have hsteps := h.steps htransactional
    ⟨hsteps.length, hsteps.step, hsteps.sum⟩
  noSteps := h.noSteps

/-- What a run gives accounts for the replies to all statements of its plan, and so does the
envelope of a transaction. -/
theorem run_accounts_for_replies {request : Request} {s : Session} {r : Result}
    (hinquiry : plan.inquiry = none)
    (hids : ∀ reply, .done reply ∈ s.script .execute → HasWholeId reply)
    (hrun : (course (e.run request plan).run s).1 = .ok r) :
    ∃ events replies, Gives (e.run request plan).run (prospect s) events (.ok r) ∧
      EndsWith e plan events replies ∧ AccountsFor plan replies r ∧
      ∀ now operations, Plan.ofOperation (.transaction operations) = .ok plan →
        ListsOperations operations (Envelope.ofResult now (.transaction operations) r) := by
  obtain ⟨events, replies, number, hgives, hends, hresult⟩ := exists_endsWith hinquiry hids hrun
  have hlength : plan.statements.length = replies.length := by
    obtain ⟨_, _, _, _, _, hm, _⟩ := hends
    exact hm.length_eq
  have haccounts : AccountsFor plan replies r := by
    rw [hresult]
    exact (accountsFor_resultFrom hlength).answered number
  exact ⟨events, replies, hgives, hends, haccounts, fun now operations hplan =>
    listsOperations_of_accountsFor hplan haccounts now⟩

/-- A transaction that adds a row, reads some and removes some. -/
def mixed : List TransactionStep :=
  [.described
    [("type", .text "create"), ("table", .text "t"), ("data", .object [("a", .int 1)])],
   .described [("type", .text "execute"), ("query", .text "SELECT a FROM t")],
   .given (.delete "t" (some [("a", .int 2)]))]

def mixedPlan : Plan := ((Plan.ofOperation (.transaction mixed)).toOption).getD { kind := .execute }

/-- A session in which the row that is added gets a number, rows are returned and the number of
those that are removed is negative. -/
def reporting : Session :=
  { script := fun kind =>
      if kind = .execute then
        [.done { rowCount := some 1, insertId := .int 7 }, .done { rows := some [[("a", .int 1)]] },
         .done { rowCount := some (-1), insertId := .int 0 }]
      else []
    hasPool := true }

theorem run_accounts_for_replies_mixed :
    Plan.ofOperation (.transaction mixed) = .ok mixedPlan ∧ mixedPlan.inquiry = none ∧
      (∀ reply, .done reply ∈ reporting.script .execute → HasWholeId reply) ∧
      ∃ r, (course (plainEngine.run ⟨"r", none, []⟩ mixedPlan).run reporting).1 = .ok r ∧
        ∃ events replies,
          Gives (plainEngine.run ⟨"r", none, []⟩ mixedPlan).run (prospect reporting) events
            (.ok r) ∧
          EndsWith plainEngine mixedPlan events replies ∧ AccountsFor mixedPlan replies r ∧
          ∀ now operations, Plan.ofOperation (.transaction operations) = .ok mixedPlan →
            ListsOperations operations
              (Envelope.ofResult now (.transaction operations) r) := by
  have hplan : Plan.ofOperation (.transaction mixed) = .ok mixedPlan :=
    ok_getD (by decide +kernel) _
  have hinquiry : mixedPlan.inquiry = none := by decide +kernel
  have hids : ∀ reply, .done reply ∈ reporting.script .execute → HasWholeId reply := by
    intro reply hreply
    have hscript : reporting.script .execute =
        [.done { rowCount := some 1, insertId := .int 7 },
          .done { rows := some [[("a", .int 1)]] },
          .done { rowCount := some (-1), insertId := .int 0 }] := rfl
    rw [hscript] at hreply
    simp only [List.mem_cons, Outcome.done.injEq, List.not_mem_nil, or_false] at hreply
    rcases hreply with rfl | rfl | rfl
    · exact .inr ⟨7, rfl⟩
    · exact .inl rfl
    · exact .inr ⟨0, rfl⟩
  have hcompletes :
      (course (plainEngine.run ⟨"r", none, []⟩ mixedPlan).run reporting).1.isOk = true := by
    decide +kernel
  cases hrun : (course (plainEngine.run ⟨"r", none, []⟩ mixedPlan).run reporting).1 with
  | error f =>
    rw [hrun] at hcompletes
    cases hcompletes
  | ok r => exact ⟨hplan, hinquiry, hids, r, rfl, run_accounts_for_replies hinquiry hids hrun⟩

end QueryGateway.Proofs.Engine.Accounts
