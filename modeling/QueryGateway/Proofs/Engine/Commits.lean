import QueryGateway.Proofs.Engine.Calls
import QueryGateway.Proofs.Engine.Telling
import QueryGateway.Proofs.Retry

/-!
How often a plan is committed. A plan takes effect exactly once, and only if a result is told, as
long as no connection fails to be released right after its commit. Where that happens, a commit that
went through is told as a failure, and what may be tried again is carried out once more.
-/

set_option autoImplicit false
set_option relaxedAutoImplicit false

namespace QueryGateway.Proofs.Engine.Commits

open QueryGateway.Database
open QueryGateway.Engine
open QueryGateway.Settings (DatabaseSettings)
open QueryGateway.Proofs.Database.Calls
open QueryGateway.Proofs.Engine.Calls
open QueryGateway.Proofs.Engine.Telling (told_ne_unwritable)
open QueryGateway.Proofs.Failure.Texts
open QueryGateway.Proofs.Failure.Translation (notSent)
open QueryGateway.Proofs.Retry

def isCommitted : Entry → Bool
  | ⟨.commit _, succeeded⟩ => succeeded
  | _ => false

def commits (made : List Entry) : Nat := made.countP isCommitted

/-- What a caller may rely on: the calls commit once at most, a result is told just where they did,
and nothing but the release of the connection follows the commit. -/
structure ExactlyOnce (made : List Entry) (succeeded : Bool) : Prop where
  once : commits made ≤ 1
  told : succeeded = true ↔ commits made = 1
  last : ∀ front c rest, made = front ++ ⟨.commit c, true⟩ :: rest → rest = [⟨.release c, true⟩]

def lostCommit (c : Nat) : List Entry := [⟨.commit c, true⟩, ⟨.release c, false⟩]

/-! ## Commits among calls -/

def isNoCommit : Call → Prop
  | .commit _ => False
  | _ => True

private theorem commits_append (m n : List Entry) : commits (m ++ n) = commits m + commits n :=
  List.countP_append

private theorem commits_eq_zero {made : List Entry} (h : ∀ e ∈ made, isNoCommit e.call) :
    commits made = 0 := by
  rw [commits, List.countP_eq_zero]
  rintro ⟨call, succeeded⟩ he
  have hcall := h _ he
  cases call <;> simp_all [isCommitted, isNoCommit]

private theorem lostCommit_infix_append {front rest : List Entry} {c : Nat}
    (h : commits front = 0) :
    lostCommit c <:+: front ++ rest ↔ lostCommit c <:+: rest := by
  induction front with
  | nil => rfl
  | cons e front ih =>
    obtain ⟨he, hfront⟩ : isCommitted e = false ∧ commits front = 0 := by
      rw [commits, List.countP_cons] at h
      have hzero : (if isCommitted e = true then 1 else 0) = 0 := Nat.eq_zero_of_add_eq_zero_left h
      exact ⟨by simpa using hzero, Nat.eq_zero_of_add_eq_zero_right h⟩
    rw [List.cons_append, List.infix_cons_iff, ih hfront]
    refine or_iff_right ?_
    rintro ⟨t, ht⟩
    have hhead : (⟨.commit c, true⟩ : Entry) = e := (List.cons.inj ht).1
    subst hhead
    cases he

/-! ## Attempts -/

/-- The calls of work on a connection whose commit, if any, is its last call. -/
inductive CommitsLast (c : Nat) : List Entry → Bool → Prop
  | committed {m : List Entry} : commits m = 0 → CommitsLast c (m ++ [⟨.commit c, true⟩]) true
  | failed {m : List Entry} : commits m = 0 → CommitsLast c m false

/-- The calls of an attempt: it is committed and told, committed and lost, or not committed. -/
inductive Ending : List Entry → Bool → Prop
  | told {m : List Entry} (c : Nat) : commits m = 0 →
      Ending (m ++ [⟨.commit c, true⟩, ⟨.release c, true⟩]) true
  | lost {m : List Entry} (c : Nat) : commits m = 0 → Ending (m ++ lostCommit c) false
  | failed {m : List Entry} : commits m = 0 → Ending m false

variable (e : Engine) (plan : Plan) {c : Nat}

private theorem makes_runSingle (c : Nat) :
    Makes (e.runSingle c plan).run fun made r => CommitsLast c made r.isOk := by
  have hrun : Only isNoCommit (e.runStatements c { kind := plan.kind } plan.statements).run :=
    only_runStatements (fun _ _ => trivial) _ _
  refine (Makes.andThen hrun fun result => Makes.andThen (makes_call .commit (.commit c)) fun _ =>
    makes_pure (Except.ok result)).mono ?_
  rintro made r (⟨f, rfl, hm⟩ | ⟨m, result, n, rfl, hm, hend⟩)
  · exact .failed (commits_eq_zero hm)
  · rcases hend with ⟨f, rfl, ⟨_, h, _⟩ | ⟨_, _, rfl⟩⟩ | ⟨k, _, l, rfl, hcommit, rfl, rfl⟩
    · cases h
    · refine .failed ?_
      rw [commits_append, commits_eq_zero hm]
      rfl
    · rcases hcommit with ⟨_, _, rfl⟩ | ⟨_, h, _⟩
      · exact .committed (commits_eq_zero hm)
      · cases h

private theorem commitsLast_of_transacted {made : List Entry} {r : Except Failure Result}
    (h : Transacted c (fun m _ => ∀ e ∈ m, isNoCommit e.call) made r) :
    CommitsLast c made r.isOk := by
  have hfront : ∀ {m : List Entry}, (∀ e ∈ m, isNoCommit e.call) →
      commits (⟨.start c, true⟩ :: m) = 0 := fun hm =>
    commits_eq_zero (List.forall_mem_cons.mpr ⟨trivial, hm⟩)
  cases h with
  | unstarted f => exact .failed rfl
  | rolledBack hm =>
    refine .failed ?_
    rw [commits_append, hfront hm]
    rfl
  | committed hm => exact .committed (hfront hm)
  | uncommitted f hm =>
    refine .failed ?_
    rw [commits_append, hfront hm]
    rfl

private theorem makes_runTransaction (request : Request) (c : Nat) :
    Makes (e.runTransaction request c plan).run fun made r => CommitsLast c made r.isOk := by
  have hsilent : ∀ (level : Log.Level) (message : String),
      Makes (ExceptT.lift (logFor request level message []) : Attempt Unit).run fun made r =>
        made = [] ∧ r = .ok () := fun level message s => ⟨[], rfl, rfl, rfl⟩
  have hruns : Only isNoCommit
      (e.runSteps request c { kind := plan.kind } 1 plan.statements).run :=
    only_runSteps (fun _ _ => trivial) _ _ _ _
  have hsteps := makes_inTransaction c hruns
  refine (Makes.andThen (hsilent _ _) fun _ => Makes.andThen hsteps fun result =>
    Makes.andThen (hsilent _ _) fun _ => makes_pure (Except.ok result)).mono ?_
  rintro made r (⟨f, rfl, _, h⟩ | ⟨m, _, n, rfl, ⟨rfl, _⟩, hrest⟩)
  · cases h
  · rw [List.nil_append]
    rcases hrest with ⟨f, rfl, htrans⟩ | ⟨k, result, l, rfl, htrans, hend⟩
    · exact commitsLast_of_transacted htrans
    · rcases hend with ⟨f, rfl, _, h⟩ | ⟨_, _, _, rfl, ⟨rfl, _⟩, rfl, rfl⟩
      · cases h
      · simpa using commitsLast_of_transacted htrans

private theorem makes_runOn (request : Request) (hplan : plan.inquiry = none) (c : Nat) :
    Makes (e.runOn request plan c).run fun made r => CommitsLast c made r.isOk := by
  unfold runOn
  rw [hplan]
  simp only
  split
  · exact makes_runTransaction e plan request c
  · exact makes_runSingle e plan c

private theorem ending_of_released {front m : List Entry} {succeeded : Bool}
    (hfront : commits front = 0)
    (h : CommitsLast c m succeeded) : Ending (front ++ (m ++ [⟨.release c, true⟩])) succeeded := by
  cases h with
  | @committed k hk =>
    have hall : commits (front ++ k) = 0 := by rw [commits_append, hfront, hk]
    simpa using Ending.told c hall
  | failed hk =>
    refine .failed ?_
    rw [commits_append, commits_append, hfront, hk]
    rfl

private theorem ending_of_unreleased {front m : List Entry} {succeeded : Bool}
    (hfront : commits front = 0)
    (h : CommitsLast c m succeeded) : Ending (front ++ (m ++ [⟨.release c, false⟩])) false := by
  cases h with
  | @committed k hk =>
    have hall : commits (front ++ k) = 0 := by rw [commits_append, hfront, hk]
    simpa [lostCommit] using Ending.lost c hall
  | failed hk =>
    refine .failed ?_
    rw [commits_append, commits_append, hfront, hk]
    rfl

private theorem makes_attempt (request : Request) (hplan : plan.inquiry = none) :
    Makes (e.attempt request plan) fun made r =>
      Ending made r.isOk ∧ ∀ f, r = .error f → f ≠ .unwritable := by
  have hconnect : Only isNoCommit e.connect.run :=
    only_connect (fun _ _ => trivial) fun _ => trivial
  have hwork := Makes.andThen hconnect fun c =>
    makes_thenReleasing c (makes_runOn e plan request hplan c)
  refine (Makes.bind hwork fun outcome => makes_pure (outcome.mapError e.told)).mono ?_
  rintro made r ⟨m, outcome, n, rfl, hm, rfl, rfl⟩
  have hok : (outcome.mapError e.told).isOk = outcome.isOk := by cases outcome <;> rfl
  have htold : ∀ f, outcome.mapError e.told = .error f → f ≠ .unwritable := by
    intro f hf
    cases outcome with
    | ok r => cases hf
    | error g =>
      cases hf
      exact told_ne_unwritable e g
  rw [List.append_nil, hok]
  refine ⟨?_, htold⟩
  rcases hm with ⟨f, rfl, hm⟩ | ⟨front, c, rest, rfl, hfront, hrest⟩
  · exact .failed (commits_eq_zero hm)
  · rcases hrest with ⟨k, rfl, hlast⟩ | ⟨k, q, f, rfl, hlast, rfl⟩
    · exact ending_of_released (commits_eq_zero hfront) hlast
    · exact ending_of_unreleased (commits_eq_zero hfront) hlast

/-! ## Repeated attempts -/

/-- The calls of attempts in a row: committed once and told, lost at least once, or not committed.
After a loss, a result tells of another commit. -/
inductive Settled : List Entry → Bool → Prop
  | told {m : List Entry} (c : Nat) : commits m = 0 →
      Settled (m ++ [⟨.commit c, true⟩, ⟨.release c, true⟩]) true
  | lost {m : List Entry} {succeeded : Bool} (c : Nat) : lostCommit c <:+: m → 1 ≤ commits m →
      (succeeded = true → 2 ≤ commits m) → Settled m succeeded
  | failed {m : List Entry} : commits m = 0 → Settled m false

private theorem settled_of_ending {m : List Entry} {succeeded : Bool} (h : Ending m succeeded) :
    Settled m succeeded := by
  cases h with
  | told c hm => exact .told c hm
  | lost c hm =>
    refine .lost c (List.suffix_append _ _).isInfix ?_ nofun
    rw [commits_append]
    exact Nat.le_add_left _ _
  | failed hm => exact .failed hm

private theorem one_le_commits {m : List Entry} (h : Settled m true) : 1 ≤ commits m := by
  cases h with
  | told c hm =>
    rw [commits_append]
    exact Nat.le_add_left _ _
  | lost c _ hm _ => exact hm

private theorem settled_append {m rest : List Entry} {succeeded : Bool} (h : Ending m false)
    (hrest : Settled rest succeeded) : Settled (m ++ rest) succeeded := by
  cases h with
  | @lost k c hm =>
    have hk : 1 ≤ commits (k ++ lostCommit c) := by
      rw [commits_append]
      exact Nat.le_add_left _ _
    have hone : 1 ≤ commits (k ++ lostCommit c ++ rest) := by
      rw [commits_append]
      exact Nat.le_add_right_of_le hk
    refine .lost c ⟨k, rest, rfl⟩ hone ?_
    rintro rfl
    rw [commits_append]
    exact Nat.add_le_add hk (one_le_commits hrest)
  | failed hm =>
    cases hrest with
    | @told k c hk =>
      rw [← List.append_assoc]
      exact .told c (by rw [commits_append, hm, hk])
    | lost c hlost hone htwo =>
      refine .lost c ((lostCommit_infix_append hm).mpr hlost) ?_ fun hs => ?_
      · rwa [commits_append, hm, Nat.zero_add]
      · rw [commits_append, hm, Nat.zero_add]
        exact htwo hs
    | failed hk => exact .failed (by rw [commits_append, hm, hk])

private theorem commits_commit_ne_zero (front rest : List Entry) (c : Nat) :
    commits (front ++ ⟨.commit c, true⟩ :: rest) ≠ 0 := by
  rw [commits_append, commits, commits, List.countP_cons_of_pos rfl]
  omega

private theorem after_commit_unique {m tail front rest : List Entry} {c d : Nat}
    (hm : commits m = 0) (htail : commits tail = 0)
    (h : m ++ ⟨.commit c, true⟩ :: tail = front ++ ⟨.commit d, true⟩ :: rest) :
    d = c ∧ rest = tail := by
  induction m generalizing front with
  | nil =>
    cases front with
    | nil =>
      cases h
      exact ⟨rfl, rfl⟩
    | cons e front =>
      rw [(List.cons.inj h).2] at htail
      exact absurd htail (commits_commit_ne_zero front rest d)
  | cons e m ih =>
    cases front with
    | nil =>
      rw [(List.cons.inj h).1] at hm
      exact absurd hm (commits_commit_ne_zero [] m d)
    | cons e' front =>
      rw [commits, List.countP_cons] at hm
      exact ih (Nat.eq_zero_of_add_eq_zero_right hm) (List.cons.inj h).2

private theorem exactlyOnce_iff_of_settled {made : List Entry} {succeeded : Bool}
    (h : Settled made succeeded) :
    ExactlyOnce made succeeded ↔ ¬ ∃ c, lostCommit c <:+: made := by
  cases h with
  | @told m c hm =>
    have hcommits : commits (m ++ [⟨.commit c, true⟩, ⟨.release c, true⟩]) = 1 := by
      rw [commits_append, hm]
      rfl
    refine iff_of_true ⟨Nat.le_of_eq hcommits, iff_of_true rfl hcommits, ?_⟩ ?_
    · intro front d rest hmade
      obtain ⟨rfl, hrest⟩ := after_commit_unique hm rfl hmade
      exact hrest
    · rintro ⟨d, hlost⟩
      obtain ⟨front, rest, hmade⟩ := (lostCommit_infix_append hm).mp hlost
      rw [lostCommit, List.append_assoc] at hmade
      have hrest := (after_commit_unique (m := []) rfl rfl hmade.symm).2
      cases hrest
  | lost c hlost hone htwo =>
    refine iff_of_false ?_ (not_not_intro ⟨c, hlost⟩)
    intro honce
    have hat : commits made = 1 := Nat.le_antisymm honce.once hone
    have htold := htwo (honce.told.mpr hat)
    omega
  | failed hm =>
    refine iff_of_true ⟨by omega, by simp [hm], ?_⟩ ?_
    · rintro front c rest rfl
      exact absurd hm (commits_commit_ne_zero front rest c)
    · rintro ⟨c, front, rest, rfl⟩
      rw [List.append_assoc] at hm
      exact absurd hm (commits_commit_ne_zero front _ c)

/-! ## Plans -/

/-- What attempts of a plan come to: they settled as they should, and what they failed with, if
anything, is told from what a result that cannot be counted fails with. -/
def Concluded (made : List Entry) (x : Except FailedAttempt Result) : Prop :=
  Settled made x.isOk ∧ ∀ a, x = .error a → a.failure ≠ .unwritable

private theorem makes_numberedAttempt (request : Request) (hplan : plan.inquiry = none)
    (number : Nat) :
    Makes (e.numberedAttempt request plan number) fun made r =>
      Ending made r.isOk ∧ ∀ a, r = .error a → a.failure ≠ .unwritable := by
  refine (Makes.bind (q := fun x made (r : Except FailedAttempt Result) =>
    made = [] ∧ r.isOk = x.isOk ∧ ∀ a, r = .error a → x = .error a.failure)
    (makes_attempt e plan request hplan) fun x => ?_).mono ?_
  · cases x with
    | ok r => exact fun s => ⟨[], rfl, rfl, rfl, nofun⟩
    | error f => exact fun s => ⟨[], rfl, rfl, rfl, fun _ ha => by cases ha; rfl⟩
  · rintro made r ⟨m, x, n, rfl, ⟨hm, hfailure⟩, rfl, hok, hsame⟩
    rw [List.append_nil, hok]
    exact ⟨hm, fun a ha => hfailure _ (hsame a ha)⟩

private theorem only_pause (request : Request) (number : Nat) (delay : Number.Binary64)
    (a : FailedAttempt) : Only isNoCommit (do
      (e.planRetry request plan).announce number delay a
      (e.planRetry request plan).wait delay) :=
  Only.bind (only_logFor _ _ _ _) fun _ => only_note trivial

private theorem concluded_of_repeated {request : Request} {number remaining : Nat}
    {made : List Entry} {x : Except FailedAttempt Result}
    (h : Repeated (e.planRetry request plan) (fun _ m (r : Except FailedAttempt Result) =>
      Ending m r.isOk ∧ ∀ a, r = .error a → a.failure ≠ .unwritable)
      (fun _ _ _ between => ∀ entry ∈ between, isNoCommit entry.call) number remaining made x) :
    Concluded made x := by
  induction h with
  | last hm => exact ⟨settled_of_ending hm.1, hm.2⟩
  | done hm => exact ⟨settled_of_ending hm.1, hm.2⟩
  | refused _ hm => exact ⟨settled_of_ending hm.1, hm.2⟩
  | unmeasured _ hdelay _ => cases hdelay
  | again _ _ hm hbetween _ ih =>
    exact ⟨settled_append hm.1 (settled_append (.failed (commits_eq_zero hbetween)) ih.1), ih.2⟩

/-- What is left of attempts: what they came to, or that the rows of their result cannot be
counted. -/
inductive Left (made : List Entry) : Except Failure Result → Prop
  | counted {r : Except Failure Result} : Settled made r.isOk → r ≠ .error .unwritable → Left made r
  | uncounted : Settled made true → Left made (.error .unwritable)

private theorem makes_reportFailure (request : Request) (a : FailedAttempt) :
    Makes (e.reportFailure request plan a) fun made _ => made = [] := by
  unfold reportFailure
  split
  · exact fun s => ⟨[], rfl, rfl⟩
  · exact fun s => ⟨[], rfl, rfl⟩

private theorem makes_reportResult (request : Request) (r : Result) :
    Makes (e.reportResult request plan r).run fun made x =>
      made = [] ∧ (x = .ok () ∨ x = .error .unwritable) := by
  have hsilent : ∀ (message : String) (fields : Fields),
      Makes (ExceptT.lift (logFor request .info message fields) : Attempt Unit).run fun made x =>
        made = [] ∧ x = .ok () := fun _ _ s => ⟨[], rfl, rfl, rfl⟩
  have hend : Makes (do
      let affected ← orFailure (Failure.written (Value.Display.text? (.int r.affectedRows)))
      logFor request .info "Plan executed" (e.planFields plan ++
        [("affected_rows", .text affected), ("row_count", .text (toString r.rows.length))]) :
      Attempt Unit).run fun made x => made = [] ∧ (x = .ok () ∨ x = .error .unwritable) := by
    cases hwritten : Failure.written (Value.Display.text? (.int r.affectedRows)) with
    | error f =>
      rw [(written_error.mp hwritten).2]
      exact fun s => ⟨[], rfl, rfl, .inr rfl⟩
    | ok affected => exact (hsilent _ _).mono fun _ _ h => h.imp_right .inl
  unfold reportResult
  simp only
  split
  · refine (Makes.andThen (hsilent _ _) fun _ => hend).mono ?_
    rintro made x (⟨f, rfl, _, h⟩ | ⟨m, _, n, rfl, ⟨rfl, _⟩, hrest⟩)
    · cases h
    · exact hrest
  · exact hend

/-- What comes of attempts when they are over: no further call, and the result is lost where its row
count cannot be told. -/
inductive Reported : Except FailedAttempt Result → List Entry → Except Failure Result → Prop
  | failed {a : FailedAttempt} : Reported (.error a) [] (.error a.failure)
  | told {result : Result} : Reported (.ok result) [] (.ok result)
  | untold {result : Result} : Reported (.ok result) [] (.error .unwritable)

private theorem makes_runWithRetry (request : Request) (hplan : plan.inquiry = none) :
    Makes (e.runWithRetry request plan).run Left := by
  have hrepeated := (makes_runFrom (r := e.planRetry request plan)
    (makes_numberedAttempt e plan request hplan) (only_pause e plan request)
    ((e.planRetry request plan).policy.attempts - 1) 1).mono
      fun _ _ => concluded_of_repeated e plan
  refine (Makes.andThen (q := Reported) hrepeated.lift fun x => ?_).mono ?_
  · cases x with
    | error a =>
      refine (Makes.andThen (makes_reportFailure e plan request a).lift fun _ =>
        makes_pure (Except.error a.failure)).mono ?_
      rintro made r (⟨f, rfl, _, h, _⟩ | ⟨m, _, n, rfl, ⟨_, _, rfl⟩, rfl, rfl⟩)
      · cases h
      · exact .failed
    | ok result =>
      refine (Makes.andThen (makes_reportResult e plan request result) fun _ =>
        makes_pure (Except.ok result)).mono ?_
      rintro made r (⟨f, rfl, rfl, h | h⟩ | ⟨m, _, n, rfl, ⟨rfl, _⟩, rfl, rfl⟩)
      · cases h
      · cases h
        exact .untold
      · exact .told
  · rintro made r (⟨f, rfl, _, h, _⟩ | ⟨m, x, n, rfl, ⟨y, hy, hsettled, hfailure⟩, hend⟩)
    · cases h
    · cases hy
      cases hend with
      | failed =>
        rw [List.append_nil]
        exact .counted hsettled fun h => hfailure _ rfl (Except.error.inj h)
      | told =>
        rw [List.append_nil]
        exact .counted hsettled nofun
      | untold =>
        rw [List.append_nil]
        exact .uncounted hsettled

/-- A run that went through and lost its result, as the number of its rows has too many digits for
the log. No other run fails in this way. -/
def Uncounted (r : Except Failure Result) : Prop := r = .error .unwritable

/-- A plan takes effect exactly once, and only if a result is told, just where no connection fails
to be released right after its commit and the rows of the result can be counted. -/
theorem exactlyOnce_iff_no_lostCommit (request : Request) (hplan : plan.inquiry = none)
    (s : Session) :
    ∃ made, (course (e.run request plan).run s).2.journal = made.reverse ++ s.journal ∧
      (ExactlyOnce made (course (e.run request plan).run s).1.isOk ↔
        (¬ ∃ c, lostCommit c <:+: made) ∧ ¬ Uncounted (course (e.run request plan).run s).1) := by
  have hping : isPing plan = false := by rw [isPing, hplan]
  have hrun : Makes (e.run request plan).run Left := by
    rw [Engine.run, hping]
    refine (makes_inSpan _ (makes_runWithRetry e plan request hplan)).mono ?_
    rintro made r ⟨q, hq, rfl⟩
    cases hq with
    | counted hsettled hne =>
      exact .counted (by rwa [isOk_outcome]) fun h => hne (outcome_eq_unwritable.mp h)
    | uncounted hsettled =>
      rw [outcome_eq_unwritable.mpr rfl]
      exact .uncounted hsettled
  obtain ⟨made, hjournal, hleft⟩ := hrun s
  refine ⟨made, hjournal, ?_⟩
  generalize (course (e.run request plan).run s).1 = r at hleft ⊢
  cases hleft with
  | counted hsettled hne =>
    rw [exactlyOnce_iff_of_settled hsettled]
    exact (and_iff_left hne).symm
  | uncounted hsettled =>
    have hone := one_le_commits hsettled
    refine iff_of_false (fun honce => ?_) fun h => h.2 rfl
    have hat : commits made = 1 := Nat.le_antisymm honce.once hone
    cases honce.told.mpr hat

/-- The engine of settings that nothing was said about. -/
def plainEngine : Engine :=
  { settings := ((DatabaseSettings.ofValues [] []).value?).getD default }

def losing : Session :=
  { script := fun kind =>
      if kind = .release then
        [.failed (.mk (.statement "OperationalError" false false) []
          (some (.mk (.general "DriverError") [.int 2013, .text "Lost connection"] none none none))
          none none)]
      else []
    hasPool := true }

/-- A session in which the first statement is not sent. -/
def unsent : Session :=
  { script := fun kind => if kind = .execute then [.failed notSent] else []
    hasPool := true }

def adding : Plan :=
  ((Plan.ofOperation (.create "t" [("a", .int 1)])).toOption).getD { kind := .create }

theorem exactlyOnce_iff_no_lostCommit_losing : adding.inquiry = none ∧
    ∃ made, (course (plainEngine.run ⟨"r", none, []⟩ adding).run losing).2.journal =
        made.reverse ++ losing.journal ∧
      (ExactlyOnce made (course (plainEngine.run ⟨"r", none, []⟩ adding).run losing).1.isOk ↔
        (¬ ∃ c, lostCommit c <:+: made) ∧
          ¬ Uncounted (course (plainEngine.run ⟨"r", none, []⟩ adding).run losing).1) :=
  ⟨rfl, exactlyOnce_iff_no_lostCommit plainEngine adding ⟨"r", none, []⟩ rfl losing⟩

/-- A row is added twice where the first release loses the connection. -/
theorem not_exactlyOnce_losing : Plan.ofOperation (.create "t" [("a", .int 1)]) = .ok adding ∧
    adding.inquiry = none ∧
    ∃ made, (course (plainEngine.run ⟨"r", none, []⟩ adding).run losing).2.journal =
        made.reverse ++ losing.journal ∧ commits made = 2 ∧
      ¬ ExactlyOnce made (course (plainEngine.run ⟨"r", none, []⟩ adding).run losing).1.isOk := by
  have htwo : commits (course (plainEngine.run ⟨"r", none, []⟩ adding).run
      losing).2.journal.reverse = 2 := by decide +kernel
  refine ⟨rfl, rfl, _, ?_, htwo, fun honce => ?_⟩
  · rw [List.reverse_reverse]
    exact (List.append_nil _).symm
  · have hle := honce.once
    omega

end QueryGateway.Proofs.Engine.Commits
