import QueryGateway.Proofs.Engine.Atomicity
import QueryGateway.Proofs.Engine.SchemaChanges

/-!
Conditions on the schema. Dropping a column and renaming a column or a table is carried out just if
the catalog has what is to go and lacks what is to come; if not, the first condition that does not
hold is told and the transaction is rolled back with nothing executed in it.
-/

set_option autoImplicit false
set_option relaxedAutoImplicit false

namespace QueryGateway.Proofs.Engine.Prechecks

open QueryGateway.Database
open QueryGateway.Engine
open QueryGateway.Proofs.Database.Calls (course)
open QueryGateway.Proofs.Database.Events
open QueryGateway.Proofs.Engine.Atomicity
open QueryGateway.Proofs.Engine.Attempts
open QueryGateway.Proofs.Engine.Commits (losing plainEngine)
open QueryGateway.Proofs.Engine.Conditions
open QueryGateway.Proofs.Engine.Courses
open QueryGateway.Proofs.Engine.SchemaChanges
open QueryGateway.Proofs.Entries (get?_put)
open QueryGateway.Proofs.Failure.Texts (faultOf? faultOf?_eq_some)
open QueryGateway.Proofs.Failure.Translation (toFault_of_refusal)
open QueryGateway.Proofs.Plan.Schema
open QueryGateway.Proofs.Success

/-! ## Conditions -/

def conditions : Operation → List Condition
  | .dropColumn table column => [tableThere table, columnThere table column]
  | .renameColumn table old new _ => [tableThere table, columnThere table old, columnNew table new]
  | .renameTable old new => [tableThere old, tableNew new]
  | _ => []

def isConditional : OperationKind → Bool
  | .dropColumn | .renameColumn | .renameTable => true
  | _ => false

/-! ## Plans -/

/-- Checks of which the first asks for a table, and the others look at the columns of no other. -/
def TableFirst (ps : List Precheck) : Prop :=
  ∃ table rest, ps = .tableExists table :: rest ∧
    ∀ p ∈ rest, ∀ searched, searched? p = some searched → searched = table

/-- A plan of one statement without parameters that is carried out in one transaction. -/
structure IsGuarded (plan : Plan) (s : Statement) : Prop where
  statements : plan.statements = [s]
  params : s.params = []
  prechecks : TableFirst s.prechecks
  transactional : plan.transactional = true
  retryable : plan.retryable = false
  inquiry : plan.inquiry = none

private theorem isGuarded_of_conditional {op : Operation} {plan : Plan}
    (hkind : isConditional op.kind = true) (h : Plan.ofOperation op = .ok plan) :
    ∃ s, IsGuarded plan s ∧ s.prechecks.map conditionOf = conditions op := by
  have hfirst : ∀ table rest,
      (∀ p ∈ rest, ∀ searched, searched? p = some searched → searched = table) →
      TableFirst (.tableExists table :: rest) := fun table rest hrest => ⟨table, rest, rfl, hrest⟩
  cases op with
  | dropColumn table column =>
    obtain ⟨t, c, ht, rfl, rfl⟩ := ofDropColumn_ok h
    obtain rfl := (openTable_ok ht).1
    exact ⟨_, ⟨rfl, rfl, hfirst _ _ (by simp [searched?]), rfl, rfl, rfl⟩, rfl⟩
  | renameColumn table old new definition =>
    obtain ⟨t, o, n, change, ht, rfl, rfl, _, rfl⟩ := ofRenameColumn_ok h
    obtain rfl := (openTable_ok ht).1
    exact ⟨_, ⟨rfl, rfl, hfirst _ _ (by simp [searched?]), rfl, rfl, rfl⟩, rfl⟩
  | renameTable old new =>
    obtain ⟨o, n, _, _, rfl, rfl, rfl⟩ := ofRenameTable_ok h
    exact ⟨_, ⟨rfl, rfl, hfirst _ _ (by simp [searched?]), rfl, rfl, rfl⟩, rfl⟩
  | _ => cases hkind

/-- The first condition that does not hold is denied, as the table whose columns it is about is
there. -/
private theorem denies_of_firstUnmet {server : Server} {ps front rest : List Precheck}
    {p : Precheck} {f : Failure} (hps : TableFirst ps) (h : FirstUnmet server ps front rest p f) :
    ∃ g, f = .ofFault g ∧ Denies (conditionOf p) g := by
  obtain ⟨table, behind, rfl, hbehind⟩ := hps
  cases h.told with
  | denied _ hdenies => exact ⟨_, rfl, hdenies⟩
  | unknown hsearched hmissing =>
    have hsplit := h.split
    cases front with
    | nil =>
      cases hsplit
      cases hsearched
    | cons q front =>
      obtain ⟨rfl, rfl⟩ := List.cons.inj hsplit
      obtain rfl := hbehind p (by simp) _ hsearched
      exact absurd (h.front _ List.mem_cons_self) hmissing

/-! ## Attempts -/

variable {e : Engine} {plan : Plan} {s : Statement}

/-- How an attempt of such a plan goes: its transaction does not begin, its statement is executed
first thing in it, or a check fails and nothing is executed. -/
inductive Guarded (e : Engine) (s : Statement) : List Event → Except Failure Result → Prop
  | unbegun {events : List Event} {f : Failure} : (∀ ev ∈ events, Unbegun ev) →
      Guarded e s events (.error f)
  | executed {front rest : List Event} {c : Nat} {y : Except Failure Result} (reply : Reply)
      (o : Outcome) : (∀ ev ∈ front, Unbegun ev) → AllMet e.server s.prechecks →
      Guarded e s
        (front ++ ⟨.start c, .done reply⟩ :: ⟨.execute c s.sql none, o⟩ :: rest) y
  | denied {front : List Event} {c : Nat} {before after : List Precheck} {p : Precheck} {f : Fault}
      {g : Failure} (reply : Reply) (o : Outcome) : (∀ ev ∈ front, Unbegun ev) →
      FirstUnmet e.server s.prechecks before after p (.ofFault f) → Denies (conditionOf p) f →
      (o.succeeded = true → g.fault? = some (stepFault 1 s.description f)) →
      Guarded e s
        (front ++ [⟨.start c, .done reply⟩, .sure (.rollBack c), ⟨.release c, o⟩]) (.error g)

private theorem guarded_of_transacted {front k : List Event} {c : Nat} {q : Except Failure Result}
    (o : Outcome) (hplan : IsGuarded plan s) (hfront : ∀ ev ∈ front, Unbegun ev)
    (h : Transacted c (Steps e c plan) k q) :
    Guarded e s (front ++ (k ++ [⟨.release c, o⟩])) ((afterRelease o q).mapError e.told) := by
  have hcall : executionOf e.server.dialect c s = .ok (.execute c s.sql none) := by
    rw [executionOf, hplan.params]
    rfl
  -- Of the ways the statement itself can go, the one without a text for the driver cannot arise.
  have hway : ∀ {m y}, Carried e c s m y →
      (m = [] ∧ ∃ before p after f, y = .error (.ofFault f) ∧ Denies (conditionOf p) f ∧
          FirstUnmet e.server s.prechecks before after p (.ofFault f)) ∨
        ∃ o, m = [⟨.execute c s.sql none, o⟩] ∧ AllMet e.server s.prechecks := by
    intro m y hm
    cases hm with
    | unmet hfirst =>
      obtain ⟨f, rfl, hdenies⟩ := denies_of_firstUnmet hplan.prechecks hfirst
      exact .inl ⟨rfl, _, _, _, f, rfl, hdenies, hfirst⟩
    | unwritten _ hf =>
      rw [hcall] at hf
      cases hf
    | executed o hok hx =>
      rw [hcall] at hx
      cases hx
      exact .inr ⟨o, rfl, hok⟩
  unfold Steps at h
  rw [hplan.statements] at h
  cases h with
  | unstarted f =>
    obtain ⟨g, hg, _⟩ := afterRelease_error o f
    rw [hg]
    refine .unbegun (List.forall_mem_append.mpr ⟨hfront, ?_⟩)
    simp [Unbegun, Outcome.succeeded]
  | @rolledBack m f reply hm =>
    obtain ⟨y, hcarried, hy⟩ := inTurn_singleton hm
    rcases hway hcarried with ⟨rfl, _, _, _, f', rfl, hdenies, hfirst⟩ | ⟨o', rfl, hok⟩
    · cases hy
      obtain ⟨g, hg, hkept⟩ := afterRelease_error o (stepFailure e (1 + 0) s (.ofFault f'))
      have htold : o.succeeded = true →
          (e.told g).fault? = some (stepFault 1 s.description f') := by
        intro ho
        rw [hkept ho, stepFailure_of_toFault _ _ (toFault_of_refusal rfl)]
        rfl
      rw [hg]
      exact .denied reply o hfront hfirst hdenies htold
    · exact .executed reply o' hfront hok
  | @closed m a reply o' hm =>
    obtain ⟨y, hcarried, hy⟩ := inTurn_singleton hm
    rcases hway hcarried with ⟨rfl, _, _, _, f', rfl, _, _⟩ | ⟨o'', rfl, hok⟩
    · cases hy
    · exact .executed reply o'' hfront hok

private theorem guarded_of_held {events : List Event} {x : Except Failure Result}
    (hplan : IsGuarded plan s) (h : Held (fun c => Worked e c plan) events x) :
    Guarded e s events (x.mapError e.told) := by
  cases h with
  | unconnected hm => exact .unbegun (unbegun_of_connects hm)
  | connected hm hn =>
    obtain ⟨k, q, o, hwork, rfl, rfl⟩ := hn
    cases hwork with
    | inquired hsome _ => exact absurd hplan.inquiry hsome
    | transacted _ _ h => exact guarded_of_transacted o hplan (unbegun_of_connects hm) h
    | single _ hfalse _ =>
      rw [hplan.transactional] at hfalse
      cases hfalse

private theorem gives_run_guarded (hplan : IsGuarded plan s) (request : Request) (p : Prospect) :
    ∃ events y, Gives (e.run request plan).run p events (answered 1 y) ∧ Guarded e s events y := by
  have hping : isPing plan = false := by rw [isPing, hplan.inquiry]
  have hattempt : ∀ q, ∃ events y, Gives (e.attempt request plan) q events y ∧
      Guarded e s events y := by
    intro q
    obtain ⟨events, x, hwork, hheld⟩ := unfolds_attemptWork e request plan q
    exact ⟨events, _, gives_attempt hwork, guarded_of_held hplan hheld⟩
  obtain ⟨front, t, hrow, hrun⟩ := gives_run hping hattempt p
  have honce : (e.policyFor plan).attempts - 1 = 0 := by
    rw [attempts_sub_one_eq_zero, hplan.retryable]
    intro hretryable
    cases hretryable
  obtain ⟨first, rest, htries, hfirst, hrest⟩ := hrow.exists_first
  rw [htries, hrest.mpr (.inl honce)] at hrun
  rw [hrest.mpr (.inl honce)] at htries
  have hlast : t = first := by
    cases front with
    | nil => exact List.singleton_inj.mp htries
    | cons u front => simp at htries
  exact ⟨first.events, first.outcome, hlast ▸ hrun, hfirst⟩

/-! ## Runs -/

/-- Events among which a transaction begins. -/
def Begun (events : List Event) : Prop := ∃ c reply, ⟨.start c, .done reply⟩ ∈ events

/-- Events of a transaction that is rolled back right after it has begun; the connection is then
released with some outcome. -/
def RolledBack (events : List Event) (o : Outcome) : Prop :=
  ∃ front c reply, (∀ ev ∈ front, Unbegun ev) ∧
    events = front ++ [⟨.start c, .done reply⟩, .sure (.rollBack c), ⟨.release c, o⟩]

/-- What a fault tells of a condition of a statement that does not hold. -/
structure Tells (s : Statement) (d : Condition) (f : Fault) : Prop where
  category : f.category = d.category
  code : f.code = d.code
  message : f.message = s.description ++ " failed: " ++ d.message
  step : f.details.get? "step" = some (.int 1)

private theorem tells_stepFault {d : Condition} {f : Fault} (h : Denies d f) :
    Tells s d (stepFault 1 s.description f) where
  category := h.category
  code := h.code
  message := congrArg (s.description ++ " failed: " ++ ·) h.message
  step := get?_put _ _ _

private theorem not_begun {events : List Event} (h : ∀ ev ∈ events, Unbegun ev) :
    ¬ Begun events := by
  rintro ⟨c, reply, hmem⟩
  have hfailed := h _ hmem
  cases hfailed

private theorem not_unbegun_execute {c : Nat} {sql : String} {params : Option (List Value)}
    {o : Outcome} :
    ¬ Unbegun ⟨.execute c sql params, o⟩ := nofun

private theorem not_executed_denied {front : List Event} {c : Nat} {sql : String} {reply : Reply}
    {o : Outcome} (hfront : ∀ ev ∈ front, Unbegun ev) :
    ¬ ∃ c' params o', ⟨.execute c' sql params, o'⟩ ∈
      front ++ [⟨.start c, .done reply⟩, .sure (.rollBack c), ⟨.release c, o⟩] := by
  rintro ⟨c', params, o', hmem⟩
  rcases List.mem_append.mp hmem with hmem | hmem
  · exact not_unbegun_execute (hfront _ hmem)
  · simp [Event.sure] at hmem

private theorem eq_of_firstUnmet {server : Server} {ps front rest : List Precheck} {p : Precheck}
    {f : Failure} (h : FirstUnmet server ps front rest p f) {before after : List Condition}
    {d : Condition} (hsplit : ps.map conditionOf = before ++ d :: after)
    (hbefore : ∀ b ∈ before, b.Holds server) (hd : ¬ d.Holds server) : conditionOf p = d := by
  obtain ⟨qs, rs, hps, rfl, hrs⟩ := List.map_eq_append_iff.mp hsplit
  obtain ⟨q, ts, rfl, rfl, rfl⟩ := List.map_eq_cons_iff.mp hrs
  have hqs : AllMet server qs := List.forall_mem_map.mp hbefore
  have hlists : qs ++ q :: ts = front ++ p :: rest := hps.symm.trans h.split
  rcases List.append_eq_append_iff.mp hlists with ⟨us, hfront, hrest⟩ | ⟨us, hback, hrest⟩
  · cases us with
    | nil =>
      cases hrest
      rfl
    | cons u us =>
      cases hrest
      exact absurd (h.front q (by simp [hfront])) hd
  · cases us with
    | nil =>
      cases hrest
      rfl
    | cons u us =>
      cases hrest
      exact absurd (hqs p (by simp [hback])) h.here

/-- A statement with conditions is executed just if they all hold, once its transaction has begun.
If not, nothing is executed, the transaction is rolled back, and the first condition that does not
hold is told unless the connection fails to be released after that. -/
theorem executes_iff_conditions_hold (e : Engine) {op : Operation} {plan : Plan}
    (h : Plan.ofOperation op = .ok plan) (hkind : isConditional op.kind = true) (request : Request)
    (session : Session) :
    ∃ s events, plan.statements = [s] ∧
      (course (e.run request plan).run session).2.journal =
        (entries events).reverse ++ session.journal ∧
      (prospect session).Allows events ∧
      (Begun events →
        ((∃ c params o, ⟨.execute c s.sql params, o⟩ ∈ events) ↔
          ∀ d ∈ conditions op, d.Holds e.server) ∧
        ∀ front d rest, conditions op = front ++ d :: rest → (∀ b ∈ front, b.Holds e.server) →
          ¬ d.Holds e.server → ∃ o f, RolledBack events o ∧
            (course (e.run request plan).run session).1 = .error f ∧
            (o.succeeded = true → ∃ fault, f.fault? = some fault ∧ Tells s d fault)) := by
  obtain ⟨s, hplan, hconditions⟩ := isGuarded_of_conditional hkind h
  obtain ⟨events, y, hrun, hguarded⟩ :=
    gives_run_guarded (e := e) hplan request (prospect session)
  obtain ⟨hresult, _, hjournal⟩ := hrun.course session rfl
  refine ⟨s, events, hplan.statements, hjournal, hrun.allowed, fun hbegun => ?_⟩
  have hall : AllMet e.server s.prechecks ↔ ∀ d ∈ conditions op, d.Holds e.server := by
    rw [← hconditions, List.forall_mem_map]
  rw [hresult]
  cases hguarded with
  | unbegun hevents => exact absurd hbegun (not_begun hevents)
  | @executed front rest c y reply o hfront hok =>
    have hmem : ⟨.execute c s.sql none, o⟩ ∈
        front ++ ⟨.start c, .done reply⟩ :: ⟨.execute c s.sql none, o⟩ :: rest := by simp
    refine ⟨iff_of_true ⟨c, none, o, hmem⟩ (hall.mp hok), ?_⟩
    intro front d rest hsplit _ hd
    exact absurd (hall.mp hok d (by simp [hsplit])) hd
  | @denied front c _ _ p f g reply o hfront hfirst hdenies htold =>
    have hsome : ¬ ∀ d ∈ conditions op, d.Holds e.server := hall.not.mp hfirst.not_allMet
    refine ⟨iff_of_false (not_executed_denied hfront) hsome, ?_⟩
    intro before d after hsplit hbefore hd
    rw [← hconditions] at hsplit
    obtain rfl := eq_of_firstUnmet hfirst hsplit hbefore hd
    exact ⟨o, g, ⟨front, c, reply, hfront, rfl⟩, rfl,
      fun ho => ⟨_, htold ho, tells_stepFault hdenies⟩⟩

/-- An engine of a database that has a table with one column. -/
def stockedEngine : Engine :=
  { plainEngine with server := { tables := [⟨"t", [{ name := "A", type := "INT" }], []⟩] } }

def otherName : Operation := .renameColumn "t" "a" "b" none

def otherNamePlan : Plan := ((Plan.ofOperation otherName).toOption).getD { kind := .renameColumn }

theorem executes_iff_conditions_hold_otherName :
    Plan.ofOperation otherName = .ok otherNamePlan ∧ isConditional otherName.kind = true ∧
      ∃ s events, otherNamePlan.statements = [s] ∧
        (course (stockedEngine.run ⟨"r", none, []⟩ otherNamePlan).run losing).2.journal =
          (entries events).reverse ++ losing.journal ∧
        (prospect losing).Allows events ∧
        (Begun events →
          ((∃ c params o, ⟨.execute c s.sql params, o⟩ ∈ events) ↔
            ∀ d ∈ conditions otherName, d.Holds stockedEngine.server) ∧
          ∀ front d rest, conditions otherName = front ++ d :: rest →
            (∀ b ∈ front, b.Holds stockedEngine.server) → ¬ d.Holds stockedEngine.server →
            ∃ o f, RolledBack events o ∧
              (course (stockedEngine.run ⟨"r", none, []⟩ otherNamePlan).run losing).1 = .error f ∧
              (o.succeeded = true → ∃ fault, f.fault? = some fault ∧ Tells s d fault)) :=
  have hplan : Plan.ofOperation otherName = .ok otherNamePlan := ok_getD (by decide +kernel) _
  ⟨hplan, rfl, executes_iff_conditions_hold stockedEngine hplan rfl ⟨"r", none, []⟩ losing⟩

def dropping : Operation := .dropColumn "t" "a"

def droppingPlan : Plan := ((Plan.ofOperation dropping).toOption).getD { kind := .dropColumn }

def isBeginning : Entry → Bool
  | ⟨.start _, succeeded⟩ => succeeded
  | _ => false

/-- Where the connection fails to be released after the rollback, that is told and not the condition
that does not hold. -/
theorem not_tells_losing :
    Plan.ofOperation dropping = .ok droppingPlan ∧ isConditional dropping.kind = true ∧
      (course (plainEngine.run ⟨"r", none, []⟩ droppingPlan).run losing).2.journal.any
        isBeginning = true ∧
      conditions dropping = [tableThere "t", columnThere "t" "a"] ∧
      ¬ (tableThere "t").Holds plainEngine.server ∧
      ∃ f fault, (course (plainEngine.run ⟨"r", none, []⟩ droppingPlan).run losing).1 = .error f ∧
        f.fault? = some fault ∧ fault.category ≠ (tableThere "t").category ∧
        fault.code ≠ (tableThere "t").code := by
  have hplan : Plan.ofOperation dropping = .ok droppingPlan := ok_getD (by decide +kernel) _
  have hnone : ¬ (tableThere "t").Holds plainEngine.server := by
    rintro ⟨t, ht, -⟩
    cases ht
  have htold : (faultOf? (course (plainEngine.run ⟨"r", none, []⟩ droppingPlan).run losing).1).map
      (fun f => (f.category, f.code)) = some (.transient, .connection) := by
    decide +kernel
  obtain ⟨fault, hfault, hkind⟩ := Option.map_eq_some_iff.mp htold
  obtain ⟨f, hf, hsome⟩ := faultOf?_eq_some hfault
  obtain ⟨hcategory, hcode⟩ := Prod.mk.inj hkind
  refine ⟨hplan, rfl, by decide +kernel, rfl, hnone, f, fault, hf, hsome, ?_, ?_⟩
  · rw [hcategory]
    decide
  · rw [hcode]
    decide

end QueryGateway.Proofs.Engine.Prechecks
