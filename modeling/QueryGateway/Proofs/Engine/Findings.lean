import QueryGateway.Proofs.Database.Calls
import QueryGateway.Engine.Run

/-!
What inquiries find out. Whatever a plan asks about the database, its result tells it under names of
its own: neither success nor failure is among them.
-/

set_option autoImplicit false
set_option relaxedAutoImplicit false

namespace QueryGateway.Proofs.Engine.Findings

open QueryGateway.Database
open QueryGateway.Engine
open QueryGateway.Proofs.Database.Calls (course course_thenReleasing outcome_eq_ok)

variable {α β ε : Type} {e : Engine} {sort : α → Prop}

/-! ## What work gives if it succeeds -/

/-- Wherever work starts, what it gives is of some sort if it succeeds. -/
def Yields (work : Run (Except ε α)) (sort : α → Prop) : Prop :=
  ∀ s a, (course work s).1 = .ok a → sort a

private theorem yields_ok {a : α} (h : sort a) : Yields (pure (.ok a) : Run (Except ε α)) sort := by
  rintro s b ⟨⟩
  exact h

private theorem yields_error (f : ε) : Yields (pure (.error f) : Run (Except ε α)) sort := nofun

theorem Yields.any (work : Run (Except ε α)) : Yields work fun _ => True := fun _ _ _ => trivial

theorem Yields.bind {work : Run β} {f : β → Run (Except ε α)} (hf : ∀ b, Yields (f b) sort) :
    Yields (work >>= f) sort := fun s => hf (course work s).1 (course work s).2

theorem Yields.after {δ : Type} {work : Run (Except δ β)} {f : Except δ β → Run (Except ε α)}
    {sort' : β → Prop} (hwork : Yields work sort')
    (hf : ∀ r, (∀ b, r = .ok b → sort' b) → Yields (f r) sort) : Yields (work >>= f) sort :=
  fun s => hf _ (hwork s) (course work s).2

theorem Yields.andThen {x : Attempt β} {f : β → Attempt α} {sort' : β → Prop}
    (hx : Yields x.run sort') (hf : ∀ b, sort' b → Yields (f b).run sort) :
    Yields (x >>= f).run sort := by
  refine Yields.after (f := ExceptT.bindCont f) hx fun r hr => ?_
  cases r with
  | error g => exact yields_error g
  | ok b => exact hf b (hr b rfl)

theorem Yields.lift {work : Run α} (h : ∀ s, sort (course work s).1) :
    Yields (ExceptT.lift work : Attempt α).run sort := by
  rintro s a ⟨⟩
  exact h s

theorem Yields.inSpan {x : Attempt α} (span : Telemetry.Span) (hx : Yields x.run sort) :
    Yields (inSpan span x).run sort := by
  refine Yields.bind fun _ => Yields.after hx fun r hr => Yields.bind fun _ => ?_
  intro s a ha
  exact hr a (outcome_eq_ok.mp ha)

theorem Yields.thenReleasing {x : Attempt α} (c : Nat) (hx : Yields x.run sort) :
    Yields (thenReleasing c x).run sort := by
  intro s a ha
  rw [course_thenReleasing] at ha
  split at ha
  · exact hx s a ha
  · cases ha

private theorem yields_runFrom {δ : Type} {r : Retry Run ε δ} {attempt : Nat → Run (Except ε α)}
    (hattempt : ∀ number, Yields (attempt number) sort) (number remaining : Nat) :
    Yields (r.runFrom attempt number remaining) sort := by
  induction remaining generalizing number with
  | zero => exact hattempt number
  | succ remaining ih =>
    refine Yields.after (hattempt number) fun q hq => ?_
    cases q with
    | ok a => exact yields_ok (hq a rfl)
    | error f =>
      change Yields (if r.admits f then _ else _) sort
      split
      · cases r.delayAfter number with
        | error g => exact yields_error g
        | ok delay =>
          refine Yields.bind fun _ => Yields.bind fun _ => ?_
          exact ih (number + 1)
      · exact yields_error f

/-! ## Inquiries -/

/-- Entries that say nothing of success or failure. -/
structure Unmarked (info : Fields) : Prop where
  success : info.has "success" = false
  error : info.has "error" = false

private theorem yields_orFailure {x : Except Failure α} (h : ∀ a, x = .ok a → sort a) :
    Yields (orFailure x).run sort := by
  cases x with
  | error f => exact yields_error _
  | ok a => exact yields_ok (h a rfl)

private theorem unmarked_describeColumns {s : Server} {table : String} {fields : Fields}
    (h : describeColumns s table = .ok fields) : Unmarked fields := by
  unfold describeColumns at h
  split at h
  · cases h
    exact ⟨rfl, rfl⟩
  · cases h

private theorem yields_stats (c : Nat) : Yields (e.stats c).run Unmarked := by
  simp only [stats]
  split
  · exact yields_error _
  · split
    · exact Yields.andThen (Yields.any _) fun counts _ => yields_ok ⟨rfl, rfl⟩
    · exact Yields.andThen (Yields.any _) fun counts _ => yields_ok ⟨rfl, rfl⟩

private theorem yields_inspect (c : Nat) (inquiry : Inquiry) :
    Yields (e.inspect c inquiry).run Unmarked := by
  have hcolumns : ∀ table, Yields (orFailure (describeColumns e.server table)).run Unmarked :=
    fun _ => yields_orFailure fun _ => unmarked_describeColumns
  cases inquiry with
  | tables => exact yields_ok ⟨rfl, rfl⟩
  | columns table => exact hcolumns table
  | utility action table =>
    cases action with
    | ping => exact yields_error _
    | describeTable =>
      cases table with
      | none => exact yields_error _
      | some table => exact hcolumns table
    | version => exact yields_ok ⟨rfl, rfl⟩
    | stats => exact yields_stats c

theorem yields_run (request : Request) {plan : Plan} {inquiry : Inquiry}
    (hinquiry : plan.inquiry = some inquiry) :
    Yields (e.run request plan).run fun r => Unmarked r.info := by
  have hattempt : Yields (e.attempt request plan) fun r => Unmarked r.info := by
    have hrunOn : ∀ c, Yields (e.runOn request plan c).run fun r => Unmarked r.info := by
      intro c
      rw [runOn, hinquiry]
      exact Yields.andThen (yields_inspect c inquiry) fun info hinfo => yields_ok hinfo
    have hwork : Yields (e.withConnection (e.runOn request plan)).run fun r => Unmarked r.info :=
      Yields.andThen (Yields.any _) fun c _ => Yields.thenReleasing c (hrunOn c)
    refine Yields.after hwork fun r hr => ?_
    cases r with
    | error f => exact yields_error _
    | ok a => exact yields_ok (hr a rfl)
  have hnumbered : ∀ number, Yields (e.numberedAttempt request plan number)
      fun r => Unmarked r.info := by
    intro number
    refine Yields.after hattempt fun r hr => ?_
    cases r with
    | error f => exact yields_error _
    | ok a => exact yields_ok (hr a rfl)
  refine Yields.inSpan _ ?_
  split
  · exact Yields.andThen (Yields.any _) fun reached _ => yields_ok ⟨rfl, rfl⟩
  · have hloop : Yields ((e.planRetry request plan).run (e.numberedAttempt request plan))
        fun r => Unmarked r.info := yields_runFrom hnumbered _ _
    have hlifted : Yields (ExceptT.lift ((e.planRetry request plan).run
        (e.numberedAttempt request plan)) : Attempt (Except FailedAttempt Result)).run
        fun q => ∀ r, q = .ok r → Unmarked r.info := Yields.lift hloop
    refine Yields.andThen hlifted fun q hq => ?_
    cases q with
    | error a => exact Yields.andThen (Yields.any _) fun _ _ => yields_error _
    | ok result => exact Yields.andThen (Yields.any _) fun _ _ => yields_ok (hq result rfl)

end QueryGateway.Proofs.Engine.Findings
