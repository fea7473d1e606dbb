import QueryGateway.Proofs.Engine.Atomicity
import QueryGateway.Proofs.Plan.Openings

/-!
What of a transaction lasts. On a database that keeps the effect of statements apart until they are
committed, an attempt either runs all statements and asks for the commit, or leaves what lasts as it
was: as long as no query that the caller wrote ends the transaction by itself.
-/

set_option autoImplicit false
set_option relaxedAutoImplicit false

namespace QueryGateway.Proofs.Engine.Durability

open QueryGateway.Database
open QueryGateway.Engine
open QueryGateway.Sql
open QueryGateway.Proofs.Database.Calls (course)
open QueryGateway.Proofs.Database.Events
open QueryGateway.Proofs.Engine.Atomicity
open QueryGateway.Proofs.Engine.Attempts (answered)
open QueryGateway.Proofs.Engine.Commits (plainEngine)
open QueryGateway.Proofs.Engine.Courses
open QueryGateway.Proofs.Plan.Openings
open QueryGateway.Proofs.Plan.Rows
open QueryGateway.Proofs.Retry.Tries
open QueryGateway.Proofs.Sql.FirstWord
open QueryGateway.Proofs.Success

variable {e : Engine} {plan : Plan} {c : Nat}

/-! ## Databases -/

/-- What a database holds: what lasts, and what the transaction under way has made of it. -/
structure Books (σ : Type) where
  lasting : σ
  working : σ
  deriving DecidableEq

/-- How a database takes calls. Statements have an effect on what the transaction under way works
on. Nothing is said of those that end the transaction, nor of a commit that fails. -/
structure Ledger (σ : Type) where
  effect : Call → Bool → σ → σ
  upheaval : Call → Bool → Books σ → Books σ

def Ledger.after {σ : Type} (l : Ledger σ) (b : Books σ) (x : Entry) : Books σ :=
  match x.call with
  | .start _ | .rollBack _ | .release _ => ⟨b.lasting, b.lasting⟩
  | .execute _ sql _ =>
    if concludes sql.toList then l.upheaval x.call x.succeeded b
    else ⟨b.lasting, l.effect x.call x.succeeded b.working⟩
  | .commit _ => if x.succeeded then ⟨b.working, b.working⟩ else l.upheaval x.call false b
  | _ => b

def Ledger.afterAll {σ : Type} (l : Ledger σ) (b : Books σ) (entries : List Entry) : Books σ :=
  entries.foldl l.after b

private theorem afterAll_append {σ : Type} (l : Ledger σ) (b : Books σ) (m n : List Event) :
    l.afterAll b (entries (m ++ n)) = l.afterAll (l.afterAll b (entries m)) (entries n) := by
  rw [entries, List.map_append]
  exact List.foldl_append

/-- What statements make of what a transaction works on, one after another. -/
def Ledger.effects {σ : Type} (l : Ledger σ) (working : σ) (entries : List Entry) : σ :=
  entries.foldl (fun w x => l.effect x.call x.succeeded w) working

/-- Events that leave what lasts as it was, whatever the database holds. -/
def Undone (events : List Event) : Prop :=
  ∀ (σ : Type) (l : Ledger σ) (b : Books σ), (l.afterAll b (entries events)).lasting = b.lasting

private theorem closed_undone : Closed Undone where
  nil := fun _ _ _ => rfl
  append := by
    intro m n hm hn σ l b
    rw [afterAll_append, hn, hm]

/-! ## Attempts -/

/-- A call that leaves what lasts alone. -/
def Harmless : Call → Prop
  | .commit _ => False
  | .execute _ sql _ => concludes sql.toList = false
  | _ => True

def Executes : Call → Prop
  | .execute _ sql _ => concludes sql.toList = false
  | _ => False

theorem Executes.harmless {x : Call} (h : Executes x) : Harmless x := by
  cases x with
  | execute _ _ _ => exact h
  | _ => exact h.elim

private theorem lasting_after {σ : Type} (l : Ledger σ) (b : Books σ) {x : Entry}
    (h : Harmless x.call) :
    (l.after b x).lasting = b.lasting := by
  obtain ⟨call, succeeded⟩ := x
  cases call with
  | commit c => exact h.elim
  | execute c sql params =>
    have hkept : concludes sql.toList = false := h
    simp only [Ledger.after, hkept, Bool.false_eq_true, if_false]
  | _ => rfl

private theorem undone_of_harmless {events : List Event} (h : ∀ ev ∈ events, Harmless ev.call) :
    Undone events := by
  induction events with
  | nil => exact closed_undone.nil
  | cons ev events ih =>
    obtain ⟨hev, hevents⟩ := List.forall_mem_cons.mp h
    have hone : Undone [ev] := fun _ l b => lasting_after l b (x := ev.entry) hev
    exact closed_undone.append hone (ih hevents)

private theorem afterAll_of_executes {σ : Type} (l : Ledger σ) (b : Books σ) {m : List Event}
    (h : ∀ ev ∈ m, Executes ev.call) :
    l.afterAll b (entries m) = ⟨b.lasting, l.effects b.working (entries m)⟩ := by
  induction m generalizing b with
  | nil => rfl
  | cons ev m ih =>
    obtain ⟨hev, hm⟩ := List.forall_mem_cons.mp h
    have hone : l.after b ev.entry =
        ⟨b.lasting, l.effect ev.call ev.outcome.succeeded b.working⟩ := by
      obtain ⟨call, o⟩ := ev
      cases call with
      | execute c sql params =>
        have hkept : concludes sql.toList = false := hev
        simp only [Event.entry, Ledger.after, hkept, Bool.false_eq_true, if_false]
      | _ => exact hev.elim
    change l.afterAll (l.after b ev.entry) (entries m) = _
    rw [ih _ hm, hone]
    rfl

private theorem firstWord_executionOf {d : Dialect} {s : Statement} {x : Call}
    (h : executionOf d c s = .ok x) :
    ∃ sql params, x = .execute c sql params ∧ firstWord sql.toList = firstWord s.chars := by
  unfold executionOf at h
  split at h
  · cases h
    refine ⟨_, _, rfl, ?_⟩
    rw [Statement.sql, Fragment.text, String.toList_ofList]
    rfl
  · cases hsql : Placeholder.render d.parameterStyle s.chars with
    | error f =>
      rw [renderedFor, hsql] at h
      cases h
    | ok t =>
      rw [renderedFor, hsql] at h
      cases h
      refine ⟨_, _, rfl, ?_⟩
      rw [String.toList_ofList]
      exact firstWord_render hsql

private theorem executes_of_executionOf {d : Dialect} {s : Statement} {x : Call}
    (hs : concludes s.chars = false) (h : executionOf d c s = .ok x) : Executes x := by
  obtain ⟨sql, params, rfl, hfirst⟩ := firstWord_executionOf h
  change concludes sql.toList = false
  rw [concludes, opensWith_congr hfirst]
  exact hs

private theorem harmless_of_unbegun {ev : Event} (h : Unbegun ev) : Harmless ev.call := by
  unfold Unbegun at h
  generalize ev.call = call at h ⊢
  cases call with
  | execute _ _ _ => exact h.elim
  | commit _ => exact h.elim
  | _ => trivial

/-- An attempt in which all statements of the plan are executed and a commit is asked for, with the
events of the statements and the outcome of the commit. -/
def Completes (e : Engine) (plan : Plan) (events m : List Event) (o : Outcome) : Prop :=
  ∃ front c reply rs o', (∀ ev ∈ front, Unbegun ev) ∧ Ran e c plan.statements m rs ∧
    events = front ++ ⟨.start c, .done reply⟩ :: m ++ [⟨.commit c, o⟩, ⟨.release c, o'⟩]

/-- An attempt in which a statement of the plan fails after the transaction has begun. -/
def FailsInStep (e : Engine) (plan : Plan) (events : List Event) : Prop :=
  ∃ front c reply m place s f o, Broke e c plan.statements m place s f ∧
    events = front ++ ⟨.start c, .done reply⟩ :: m ++ [.sure (.rollBack c), ⟨.release c, o⟩]

private theorem completes_or_undone {events : List Event} {y : Except Failure Result}
    (hplan : ∀ s ∈ plan.statements, concludes s.chars = false) (h : Atomic e plan events y) :
    (∃ m o, Completes e plan events m o) ∨ Undone events := by
  cases h with
  | unbegun hevents =>
    exact .inr (undone_of_harmless fun ev hev => harmless_of_unbegun (hevents ev hev))
  | completed reply o o' hfront hran _ => exact .inl ⟨_, o, _, _, reply, _, o', hfront, hran, rfl⟩
  | @broken front m c place s f g reply o' hfront hbroke _ =>
    have hbegun : ∀ ev ∈ front, Harmless ev.call := fun ev hev =>
      harmless_of_unbegun (hfront ev hev)
    have hm : ∀ ev ∈ m, Harmless ev.call :=
      forall_of_broke (fun s hs _ h => (executes_of_executionOf (hplan s hs) h).harmless) hbroke
    have hworked : ∀ ev ∈ (⟨.start c, .done reply⟩ : Event) :: m, Harmless ev.call :=
      List.forall_mem_cons.mpr ⟨trivial, hm⟩
    have hended : ∀ ev ∈ [Event.sure (.rollBack c), ⟨.release c, o'⟩], Harmless ev.call := by
      simp [Event.sure, Harmless]
    have hall := List.forall_mem_append.mpr
      ⟨List.forall_mem_append.mpr ⟨hbegun, hworked⟩, hended⟩
    exact .inr (undone_of_harmless hall)

private theorem lasting_of_completes {events m : List Event} {reply : Reply}
    (hplan : ∀ s ∈ plan.statements, concludes s.chars = false)
    (h : Completes e plan events m (.done reply)) {σ : Type} (l : Ledger σ) (b : Books σ) :
    (l.afterAll b (entries events)).lasting = l.effects b.lasting (entries m) := by
  obtain ⟨front, c, reply', rs, o', hfront, hran, rfl⟩ := h
  have hkept : Undone front := undone_of_harmless fun ev hev => harmless_of_unbegun (hfront ev hev)
  have hm : ∀ ev ∈ m, Executes ev.call :=
    forall_of_ran (fun s hs _ => executes_of_executionOf (hplan s hs)) hran
  rw [afterAll_append, afterAll_append]
  generalize hbegun : l.afterAll b (entries front) = b'
  have hlasting : b'.lasting = b.lasting := by
    rw [← hbegun]
    exact hkept σ l b
  have hstatements : l.afterAll b' (entries (⟨.start c, .done reply'⟩ :: m)) =
      ⟨b'.lasting, l.effects b'.lasting (entries m)⟩ :=
    afterAll_of_executes l ⟨b'.lasting, b'.lasting⟩ hm
  rw [hstatements, hlasting]
  rfl

private theorem not_completes_of_failsInStep {events : List Event} (h : FailsInStep e plan events)
    (m : List Event) (o : Outcome) : ¬ Completes e plan events m o := by
  obtain ⟨front, c, reply, m', place, s, f, o', _, rfl⟩ := h
  rintro ⟨front', c', reply', rs, o'', _, _, hevents⟩
  have hlast := (List.append_inj' hevents rfl).2
  cases hlast

/-! ## Transactions -/

/-- What lasts of a transaction lasts as a whole: of each attempt the effects of all its statements
or nothing, of one in which a step fails nothing, and nothing of the attempts together if none gets
to its end. -/
structure AllOrNothing (e : Engine) (plan : Plan) (tries : List (Try (Except Failure Result))) :
    Prop where
  attempts : ∀ u ∈ tries, (∃ m o, Completes e plan u.events m o) ∨ Undone u.events
  whole : ∀ u ∈ tries, ∀ m reply, Completes e plan u.events m (.done reply) →
    ∀ (σ : Type) (l : Ledger σ) (b : Books σ),
      (l.afterAll b (entries u.events)).lasting = l.effects b.lasting (entries m)
  broken : ∀ u ∈ tries, FailsInStep e plan u.events → Undone u.events
  together : (∀ u ∈ tries, ∀ m o, ¬ Completes e plan u.events m o) →
    Undone (inRow e.settings.retryDelay 1 tries)

private theorem allOrNothing_of_atomic {tries : List (Try (Except Failure Result))}
    (hplan : ∀ s ∈ plan.statements, concludes s.chars = false)
    (h : ∀ u ∈ tries, Atomic e plan u.events u.outcome) : AllOrNothing e plan tries := by
  have hattempts : ∀ u ∈ tries, (∃ m o, Completes e plan u.events m o) ∨ Undone u.events :=
    fun u hu => completes_or_undone hplan (h u hu)
  have hundone : ∀ u ∈ tries, (∀ m o, ¬ Completes e plan u.events m o) → Undone u.events :=
    fun u hu hnone => (hattempts u hu).resolve_left fun ⟨m, o, hcompletes⟩ => hnone m o hcompletes
  refine ⟨hattempts, ?_, ?_, ?_⟩
  · intro u _ m reply hcompletes σ l b
    exact lasting_of_completes hplan hcompletes l b
  · intro u hu hfails
    exact hundone u hu (not_completes_of_failsInStep hfails)
  · intro hnone
    have hall : ∀ u ∈ tries, Undone u.events := fun u hu => hundone u hu (hnone u hu)
    exact closed_inRow closed_undone (fun _ _ _ _ => rfl) hall 1

/-- A plan of steps ends its own transaction just where a query among them asks for it, which needs
no leave to write unless it acts on the schema. Without such a query, a transaction lasts as a whole
or not at all. -/
theorem transaction_allOrNothing (e : Engine) {steps : List TransactionStep} {plan : Plan}
    (h : Plan.ofOperation (.transaction steps) = .ok plan) :
    ((∃ s ∈ plan.statements, concludes s.chars = true) ↔ ∃ step ∈ steps, AsksToConclude step) ∧
      (∀ step ∈ steps, ∀ query params,
        Plan.operationOf step = .ok (.execute query params false) →
          opensWith schemaWords query.toList = false) ∧
      ((∀ step ∈ steps, ¬ AsksToConclude step) → ∀ request s, ∃ front t,
        (course (e.run request plan).run s).2.journal =
            (entries (inRow e.settings.retryDelay 1 (front ++ [t]))).reverse ++ s.journal ∧
          (course (e.run request plan).run s).1 = answered (front ++ [t]).length t.outcome ∧
          (∀ u ∈ front ++ [t], ∃ p, Gives (e.attempt request plan) p u.events u.outcome) ∧
          AllOrNothing e plan (front ++ [t])) := by
  obtain ⟨ss, hss, rfl⟩ := ofTransaction_ok h
  have hiff := concludes_stepwise_iff hss
  refine ⟨hiff, fun step hmem query params hop => opensWith_schemaWords hss hmem hop, ?_⟩
  intro hsteps request s
  have hplain : ∀ t ∈ ss, concludes t.chars = false := by
    intro t ht
    refine Bool.eq_false_iff.mpr fun hconcludes => ?_
    obtain ⟨step, hmem, hasks⟩ := hiff.mp ⟨t, ht, hconcludes⟩
    exact hsteps step hmem hasks
  let plan : Plan := { kind := .transaction, statements := ss, transactional := true }
  have htransactional : plan.transactional = true := rfl
  obtain ⟨front, t, hrun, hattempts⟩ :=
    gives_run_transaction (e := e) htransactional rfl request (prospect s)
  obtain ⟨hresult, _, hjournal⟩ := hrun.course s rfl
  refine ⟨front, t, hjournal, hresult, fun u hu => (hattempts u hu).2, ?_⟩
  exact allOrNothing_of_atomic hplain fun u hu => (hattempts u hu).1

private theorem not_asksToConclude_addingTo (table : String) (n : Int) :
    ¬ AsksToConclude (.described (addingTo table n)) := by
  rintro ⟨query, params, allowWrite, hop, _⟩
  have hcreate : Plan.operationOf (.described (addingTo table n)) =
      .ok (.create table [("a", .int n)]) := rfl
  rw [hcreate] at hop
  cases hop

theorem transaction_allOrNothing_addingTwice :
    Plan.ofOperation (.transaction addingTwice) = .ok addingTwicePlan ∧
      (∀ step ∈ addingTwice, ¬ AsksToConclude step) ∧
      ∃ front t,
        (course (plainEngine.run ⟨"r", none, []⟩ addingTwicePlan).run deadlocked).2.journal =
            (entries (inRow plainEngine.settings.retryDelay 1 (front ++ [t]))).reverse ++
              deadlocked.journal ∧
          (course (plainEngine.run ⟨"r", none, []⟩ addingTwicePlan).run deadlocked).1 =
            answered (front ++ [t]).length t.outcome ∧
          (∀ u ∈ front ++ [t],
            ∃ p, Gives (plainEngine.attempt ⟨"r", none, []⟩ addingTwicePlan) p u.events u.outcome) ∧
          AllOrNothing plainEngine addingTwicePlan (front ++ [t]) := by
  have hplan : Plan.ofOperation (.transaction addingTwice) = .ok addingTwicePlan :=
    ok_getD (by decide +kernel) _
  have hsteps : ∀ step ∈ addingTwice, ¬ AsksToConclude step := by
    simp [addingTwice, not_asksToConclude_addingTo]
  obtain ⟨_, _, hlasts⟩ := transaction_allOrNothing plainEngine hplan
  exact ⟨hplan, hsteps, hlasts hsteps ⟨"r", none, []⟩ deadlocked⟩

def committing : TransactionStep :=
  .described [("type", .text "execute"), ("query", .text "COMMIT")]

def withCommit : List TransactionStep :=
  [.described (addingTo "t" 1), committing, .described (addingTo "u" 2)]

def committingBetween : Plan :=
  ((Plan.ofOperation (.transaction withCommit)).toOption).getD { kind := .transaction }

/-- A session in which the third statement finds its row there already. -/
def duplicated : Session :=
  { script := fun kind =>
      if kind = .execute then
        [.done .plain, .done .plain,
         .failed (.mk (.general "DriverError") [.int 1062, .text "Duplicate entry"] none none none)]
      else []
    hasPool := true }

/-- A database that counts the statements that it has carried out, and where those that end a
transaction make what came before them last. -/
def counting : Ledger Nat where
  effect _ succeeded n := if succeeded then n + 1 else n
  upheaval _ succeeded b := if succeeded then ⟨b.working, b.working⟩ else b

/-- Of a transaction with a commit among its steps, the first row lasts although the last step
fails. -/
theorem not_undone_committingBetween :
    Plan.ofOperation (.transaction withCommit) = .ok committingBetween ∧
      (∃ s ∈ committingBetween.statements, concludes s.chars = true) ∧
      (course (plainEngine.run ⟨"r", none, []⟩ committingBetween).run duplicated).1.isOk = false ∧
      (counting.afterAll ⟨0, 0⟩
        (course (plainEngine.run ⟨"r", none, []⟩ committingBetween).run
          duplicated).2.journal.reverse).lasting = 1 := by
  refine ⟨ok_getD (by decide +kernel) _, ?_, ?_, ?_⟩
  · decide +kernel
  · decide +kernel
  · decide +kernel

end QueryGateway.Proofs.Engine.Durability
