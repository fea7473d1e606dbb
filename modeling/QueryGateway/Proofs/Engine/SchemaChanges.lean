import QueryGateway.Proofs.Engine.Policy
import QueryGateway.Proofs.Plan.Rows
import QueryGateway.Proofs.Plan.Schema

/-!
How often a change of the schema is carried out. The server commits such a statement by itself, so
that a second attempt may find it done already. Changes that the gateway words are attempted once;
one that the caller words is attempted again as often as a query.
-/

set_option autoImplicit false
set_option relaxedAutoImplicit false

namespace QueryGateway.Proofs.Engine.SchemaChanges

open QueryGateway.Database
open QueryGateway.Engine
open QueryGateway.Sql
open QueryGateway.Proofs.Database.Calls (course)
open QueryGateway.Proofs.Database.Events
open QueryGateway.Proofs.Engine.Attempts
open QueryGateway.Proofs.Engine.Commits (plainEngine)
open QueryGateway.Proofs.Engine.Courses
open QueryGateway.Proofs.Engine.Policy
open QueryGateway.Proofs.Plan.Rows
open QueryGateway.Proofs.Plan.Schema
open QueryGateway.Proofs.Retry.Tries
open QueryGateway.Proofs.Success

/-! ## Plans -/

def changesSchema : OperationKind → Bool
  | .ddl | .addColumn | .dropColumn | .modifyColumn | .renameColumn | .renameTable | .addIndex
  | .dropIndex => true
  | _ => false

/-- A plan of one statement, which may be attempted again or not. -/
structure IsChange (plan : Plan) (again : Bool) : Prop where
  statement : ∃ s, plan.statements = [s]
  inquiry : plan.inquiry = none
  retryable : plan.retryable = again

private theorem isChange_alteration (kind : OperationKind) (table : Name)
    (fragments : List Fragment) (description : String) (prechecks : List Precheck) :
    IsChange (Plan.alteration kind table fragments description prechecks) false :=
  ⟨⟨_, rfl⟩, rfl, rfl⟩

private theorem isChange_of_changesSchema {op : Operation} {plan : Plan}
    (hkind : changesSchema op.kind = true) (h : Plan.ofOperation op = .ok plan) :
    IsChange plan (op.kind == .ddl) := by
  cases op with
  | ddl statement =>
    obtain ⟨statement', _, rfl⟩ := ofDdl_ok_iff.mp h
    exact ⟨⟨_, rfl⟩, rfl, rfl⟩
  | addColumn table column position =>
    obtain ⟨t, definition, ns, _, _, _, rfl⟩ := ofAddColumn_ok h
    exact isChange_alteration _ _ _ _ _
  | dropColumn table column =>
    obtain ⟨t, c, _, _, rfl⟩ := ofDropColumn_ok h
    exact isChange_alteration _ _ _ _ _
  | modifyColumn table column definition =>
    obtain ⟨t, c, fs, _, _, _, rfl⟩ := ofModifyColumn_ok h
    exact isChange_alteration _ _ _ _ _
  | renameColumn table old new definition =>
    obtain ⟨t, o, n, change, _, _, _, _, rfl⟩ := ofRenameColumn_ok h
    exact isChange_alteration _ _ _ _ _
  | renameTable old new =>
    obtain ⟨o, n, _, _, _, _, rfl⟩ := ofRenameTable_ok h
    exact isChange_alteration _ _ _ _ _
  | addIndex r =>
    obtain ⟨t, n, ns, words, _, _, _, _, rfl⟩ := ofAddIndex_ok h
    exact isChange_alteration _ _ _ _ _
  | dropIndex table name =>
    obtain ⟨t, n, _, _, rfl⟩ := ofDropIndex_ok h
    exact isChange_alteration _ _ _ _ _
  | _ => cases hkind

/-! ## Attempts -/

def isExecution : Call → Bool
  | .execute _ _ _ => true
  | _ => false

def executions (events : List Event) : Nat := events.countP fun ev => isExecution ev.call

private theorem executions_append (m n : List Event) :
    executions (m ++ n) = executions m + executions n :=
  List.countP_append

private theorem executions_eq_zero {events : List Event}
    (h : ∀ ev ∈ events, isExecution ev.call = false) :
    executions events = 0 :=
  List.countP_eq_zero.mpr fun ev hev => by simp [h ev hev]

variable {α : Type} {e : Engine} {plan : Plan} {c : Nat} {s : Statement}

private theorem executions_of_carried {m : List Event} {r : Except Failure StatementResult}
    (h : Carried e c s m r) : executions m ≤ 1 := by
  cases h with
  | unmet _ => exact Nat.zero_le 1
  | unwritten _ _ => exact Nat.zero_le 1
  | executed o _ _ => exact List.countP_le_length

private theorem executions_of_inTurn {whole : List StatementResult → α}
    {broken : Nat → Statement → Failure → Failure} {m : List Event} {r : Except Failure α}
    (h : InTurn e c [s] whole broken m r) : executions m ≤ 1 := by
  obtain ⟨y, hcarried, _⟩ := inTurn_singleton h
  exact executions_of_carried hcarried

private theorem executions_of_worked {events : List Event} {r : Except Failure Result}
    (hs : plan.statements = [s]) (hinquiry : plan.inquiry = none) (h : Worked e c plan events r) :
    executions events ≤ 1 := by
  have hstart : ∀ (o : Outcome) (m : List Event), executions (⟨.start c, o⟩ :: m) = executions m :=
    fun o m => List.countP_cons_of_neg Bool.false_ne_true
  have hrollBack : executions [.sure (.rollBack c)] = 0 := rfl
  have hcommit : ∀ o, executions [⟨.commit c, o⟩] = 0 := fun _ => rfl
  cases h with
  | inquired hsome _ => exact absurd hinquiry hsome
  | transacted _ _ h =>
    unfold Steps at h
    rw [hs] at h
    cases h with
    | unstarted f => exact Nat.zero_le 1
    | rolledBack reply hm =>
      rw [executions_append, hstart, hrollBack]
      exact executions_of_inTurn hm
    | closed reply o hm =>
      rw [executions_append, hstart, hcommit]
      exact executions_of_inTurn hm
  | single _ _ h =>
    unfold Statements at h
    rw [hs] at h
    cases h with
    | failed hm => exact executions_of_inTurn hm
    | closed o hm =>
      rw [executions_append, hcommit]
      exact executions_of_inTurn hm

private theorem executions_of_held {events : List Event} {x : Except Failure Result}
    (hs : plan.statements = [s]) (hinquiry : plan.inquiry = none)
    (h : Held (fun c => Worked e c plan) events x) : executions events ≤ 1 := by
  have hconnects : ∀ {m : List Event} {r : Except Failure Nat}, Connects m r → executions m = 0 :=
    fun hm => executions_eq_zero <|
      @forall_of_connects (fun call => isExecution call = false) (fun _ _ => rfl) (fun _ => rfl) _ _ hm
  cases h with
  | unconnected hm => exact (hconnects hm).trans_le (Nat.zero_le 1)
  | @connected m n c x hm hn =>
    obtain ⟨k, q, o, hwork, rfl, rfl⟩ := hn
    have hrelease : executions [⟨.release c, o⟩] = 0 := rfl
    rw [executions_append, executions_append, hconnects hm, hrelease, Nat.zero_add, Nat.add_zero]
    exact executions_of_worked hs hinquiry hwork

/-! ## Runs -/

/-- Calls that execute one statement at most, and no wait among them. -/
structure RunsOnce (made : List Entry) : Prop where
  once : made.countP (fun x => isExecution x.call) ≤ 1
  awake : ∀ x ∈ made, ∀ delay, x.call ≠ .sleep delay

private theorem countP_entries (events : List Event) :
    (entries events).countP (fun x => isExecution x.call) = executions events :=
  List.countP_map

private theorem runsOnce_of_events {events : List Event} (honce : executions events ≤ 1)
    (hawake : ∀ ev ∈ events, ∀ delay, ev.call ≠ .sleep delay) : RunsOnce (entries events) where
  once := (countP_entries events).trans_le honce
  awake := List.forall_mem_map.mpr hawake

private theorem not_runsOnce_of_again {β : Type} (unit : Number.Binary64) (number : Nat)
    (t u : Try β)
    (rest : List (Try β)) : ¬ RunsOnce (entries (inRow unit number (t :: u :: rest))) := by
  intro h
  have hpause : pauseAfter unit number ∈ inRow unit number (t :: u :: rest) :=
    List.mem_append_right _ List.mem_cons_self
  exact h.awake _ (List.mem_map_of_mem hpause) _ rfl

theorem attempts_sub_one_eq_zero :
    (e.policyFor plan).attempts - 1 = 0 ↔ (plan.retryable = true → e.settings.maxRetries ≤ 1) := by
  simp only [RetryPolicy.attempts, policyFor]
  cases plan.retryable with
  | false => simp
  | true =>
    simp only [if_true, forall_const]
    omega

/-- A change of the schema is carried out once at most and never waited for, unless its statement is
the caller's own, more than one attempt is allowed and the first fails for a passing reason. -/
theorem runsOnce_iff (e : Engine) {op : Operation} {plan : Plan}
    (h : Plan.ofOperation op = .ok plan) (hkind : changesSchema op.kind = true) (request : Request)
    (s : Session) :
    ∃ made, (course (e.run request plan).run s).2.journal = made.reverse ++ s.journal ∧
      (RunsOnce made ↔ (op.kind = .ddl → 1 < e.settings.maxRetries →
        isPassing (course (e.attempt request plan) s).1 = false)) := by
  obtain ⟨⟨statement, hstatement⟩, hinquiry, hretryable⟩ := isChange_of_changesSchema hkind h
  have hping : isPing plan = false := by rw [isPing, hinquiry]
  have hattempt : ∀ q, ∃ events y, Gives (e.attempt request plan) q events y ∧
      (Gives (e.attempt request plan) q events y ∧ RunsOnce (entries events)) := by
    intro q
    obtain ⟨events, x, hwork, hheld⟩ := unfolds_attemptWork e request plan q
    have hgives := gives_attempt hwork
    exact ⟨events, _, hgives, hgives, runsOnce_of_events
      (executions_of_held hstatement hinquiry hheld) (awake_of_held hheld)⟩
  obtain ⟨front, t, hrow, hrun⟩ := gives_run hping hattempt (prospect s)
  obtain ⟨_, _, hjournal⟩ := hrun.course s rfl
  obtain ⟨first, rest, htries, ⟨hgives, honce⟩, hrest⟩ := hrow.exists_first
  rw [htries] at hjournal
  refine ⟨_, hjournal, ?_⟩
  have houtcome : (course (e.attempt request plan) s).1 = first.outcome := (hgives.course s rfl).1
  have hexact : rest = [] ↔ (op.kind = .ddl → 1 < e.settings.maxRetries →
      isPassing first.outcome = false) := by
    have hddl : plan.retryable = true ↔ op.kind = .ddl := by rw [hretryable, beq_iff_eq]
    rw [hrest, attempts_sub_one_eq_zero, hddl, ← not_lt]
    refine ⟨fun h hkind hmore => h.resolve_left fun hone => hone hkind hmore, fun h => ?_⟩
    by_cases hmore : op.kind = .ddl ∧ 1 < e.settings.maxRetries
    · exact .inr (h hmore.1 hmore.2)
    · exact .inl fun hkind hlt => hmore ⟨hkind, hlt⟩
  rw [houtcome, ← hexact]
  cases rest with
  | nil => exact iff_of_true honce rfl
  | cons u rest => exact iff_of_false (not_runsOnce_of_again _ _ _ _ _) (List.cons_ne_nil _ _)

/-- A session in which the connection is lost while the first statement is carried out. -/
def interrupted : Session :=
  { script := fun kind =>
      if kind = .execute then
        [.failed (.mk (.statement "OperationalError" false false) []
          (some (.mk (.general "DriverError") [.int 2013, .text "Lost connection"] none none none))
          none none)]
      else []
    hasPool := true }

def dropping : Plan :=
  ((Plan.ofOperation (.dropIndex "t" "i")).toOption).getD { kind := .dropIndex }

theorem runsOnce_iff_dropping :
    Plan.ofOperation (.dropIndex "t" "i") = .ok dropping ∧
      changesSchema (Operation.dropIndex "t" "i").kind = true ∧
      ∃ made, (course (plainEngine.run ⟨"r", none, []⟩ dropping).run interrupted).2.journal =
          made.reverse ++ interrupted.journal ∧
        (RunsOnce made ↔ ((Operation.dropIndex "t" "i").kind = .ddl →
          1 < plainEngine.settings.maxRetries →
            isPassing (course (plainEngine.attempt ⟨"r", none, []⟩ dropping) interrupted).1 =
              false)) := by
  have hplan : Plan.ofOperation (.dropIndex "t" "i") = .ok dropping :=
    ok_getD (by decide +kernel) _
  exact ⟨hplan, rfl, runsOnce_iff plainEngine hplan rfl ⟨"r", none, []⟩ interrupted⟩

/-- The plan of a statement of the caller's that adds a column. -/
def altering : Plan :=
  ((Plan.ofOperation (.ddl "ALTER TABLE t ADD COLUMN a INT")).toOption).getD { kind := .ddl }

/-- A statement of the caller's that changes the schema is carried out twice where the connection is
lost the first time. -/
theorem not_runsOnce_altering :
    Plan.ofOperation (.ddl "ALTER TABLE t ADD COLUMN a INT") = .ok altering ∧
      changesSchema (Operation.ddl "ALTER TABLE t ADD COLUMN a INT").kind = true ∧
      ∃ made, (course (plainEngine.run ⟨"r", none, []⟩ altering).run interrupted).2.journal =
          made.reverse ++ interrupted.journal ∧
        made.countP (fun x => isExecution x.call) = 2 ∧ ¬ RunsOnce made := by
  have htwo : (course (plainEngine.run ⟨"r", none, []⟩ altering).run
      interrupted).2.journal.reverse.countP (fun x => isExecution x.call) = 2 := by decide +kernel
  refine ⟨ok_getD (by decide +kernel) _, rfl, _, ?_, htwo, fun honce => ?_⟩
  · rw [List.reverse_reverse]
    exact (List.append_nil _).symm
  · have hle := honce.once
    omega

end QueryGateway.Proofs.Engine.SchemaChanges
