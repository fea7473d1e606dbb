import QueryGateway.Proofs.Database.Calls
import QueryGateway.Retry

/-!
The records that work writes. A record is marked with the scope that it is written in, so what is
said about the records of some work depends on the scope in which the work starts, and the scope in
which it ends matters to whatever comes next.
-/

set_option autoImplicit false
set_option relaxedAutoImplicit false

namespace QueryGateway.Proofs.Database.Records

open QueryGateway.Database
open QueryGateway.Proofs.Database.Calls (course course_bind course_call course_release
  course_thenReleasing underWay)

variable {α β : Type}

/-- From one scope, work leads to another and writes records of one sort only. -/
def Writes (sort : Log.Record → Prop) (before after : Log.Scope) (work : Run α) : Prop :=
  ∀ s, s.scope = before → (course work s).2.scope = after ∧
    ∃ new, (course work s).2.records = new ++ s.records ∧ ∀ r ∈ new, sort r

variable {sort : Log.Record → Prop} {a b c : Log.Scope} {work : Run α}

theorem Writes.mono {sort' : Log.Record → Prop} (h : Writes sort a b work)
    (himp : ∀ r, sort r → sort' r) : Writes sort' a b work := by
  intro s hs
  obtain ⟨hscope, new, hnew, hsort⟩ := h s hs
  exact ⟨hscope, new, hnew, fun r hr => himp r (hsort r hr)⟩

theorem writes_of_frame (hscope : ∀ s, (course work s).2.scope = s.scope)
    (hrecords : ∀ s, (course work s).2.records = s.records) : Writes sort a a work := by
  intro s hs
  exact ⟨(hscope s).trans hs, [], hrecords s, List.forall_mem_nil _⟩

theorem writes_pure (x : α) : Writes sort a a (pure x) :=
  writes_of_frame (fun _ => rfl) fun _ => rfl

theorem Writes.bind {f : α → Run β} (hwork : Writes sort a b work)
    (hf : ∀ x, Writes sort b c (f x)) : Writes sort a c (work >>= f) := by
  intro s hs
  obtain ⟨hmiddle, m, hm, hmsort⟩ := hwork s hs
  obtain ⟨hend, n, hn, hnsort⟩ := hf (course work s).1 _ hmiddle
  rw [course_bind]
  refine ⟨hend, n ++ m, ?_, List.forall_mem_append.mpr ⟨hnsort, hmsort⟩⟩
  rw [hn, hm, List.append_assoc]

theorem Writes.andThen {x : Attempt α} {f : α → Attempt β} (hx : Writes sort a b x.run)
    (hf : ∀ y, Writes sort b b (f y).run) : Writes sort a b (x >>= f).run := by
  have hcont : ∀ r : Except Failure α, Writes sort b b (ExceptT.bindCont f r) := by
    intro r
    cases r with
    | error e => exact writes_pure _
    | ok y => exact hf y
  exact Writes.bind hx hcont

theorem Writes.afterLift {f : α → Attempt β} (hwork : Writes sort a b work)
    (hf : ∀ y, Writes sort b c (f y).run) :
    Writes sort a c (ExceptT.lift work >>= f : Attempt β).run :=
  Writes.bind hwork hf

theorem Writes.lift (h : Writes sort a b work) :
    Writes sort a b (ExceptT.lift work : Attempt α).run :=
  Writes.bind h fun y => writes_pure (Except.ok y)

theorem writes_ok (x : α) : Writes sort a a (pure x : Attempt α).run :=
  writes_pure _

theorem writes_throw (f : Failure) : Writes sort a a (throw f : Attempt α).run :=
  writes_pure (Except.error f)

theorem writes_lookAt {f : Session → Attempt α} (h : ∀ s, Writes sort a b (f s).run) :
    Writes sort a b (get >>= f : Attempt α).run := fun s hs => h s s hs

/-! ## What a session is told -/

theorem writes_logging (r : Log.Record) (h : sort (r.stamp a)) :
    Writes sort a a (modify fun s => s.logging r : Run PUnit) := by
  rintro s rfl
  exact ⟨rfl, [r.stamp s.scope], rfl, List.forall_mem_singleton.mpr h⟩

private theorem writes_tellAll (es : List Telemetry.SpanEvent) :
    Writes sort a a (es.forM tell) := by
  induction es with
  | nil => exact writes_pure _
  | cons e es ih =>
    have htell : Writes sort a a (tell e) := writes_of_frame (fun _ => rfl) fun _ => rfl
    exact Writes.bind htell fun _ => ih

theorem Writes.inSpan {x : Attempt α} (span : Telemetry.Span) (hx : Writes sort a b x.run) :
    Writes sort a b (inSpan span x).run := by
  refine Writes.bind (writes_tellAll span.opening) fun _ => ?_
  refine Writes.bind hx fun r => ?_
  exact Writes.bind (writes_tellAll (span.closing r)) fun _ => writes_pure _

/-! ## Calls -/

theorem writes_note (k : Call) : Writes sort a a (note k) :=
  writes_of_frame (fun _ => rfl) fun _ => rfl

theorem writes_call (kind : CallKind) (k : Call) : Writes sort a a (call kind k).run := by
  refine writes_of_frame (fun s => ?_) fun s => ?_
  · rw [course_call]
    rfl
  · rw [course_call]
    rfl

theorem writes_checkOut : Writes sort a a checkOut.run := by
  refine writes_lookAt fun s => ?_
  have hnext : Writes sort a a
      (modify fun s' => { s' with opened := s.opened + 1 } : Run PUnit) :=
    writes_of_frame (fun _ => rfl) fun _ => rfl
  refine Writes.andThen (writes_call _ _) fun _ => ?_
  exact Writes.andThen hnext.lift fun _ => writes_ok _

private theorem writes_release (k : Nat) (pending : Option Failure) :
    Writes sort a a (release k pending).run := by
  refine writes_of_frame (fun s => ?_) fun s => ?_
  · rw [course_release]
    rfl
  · rw [course_release]
    rfl

theorem Writes.thenReleasing {x : Attempt α} (k : Nat) (hx : Writes sort a b x.run) :
    Writes sort a b (thenReleasing k x).run := by
  intro s hs
  obtain ⟨hmiddle, m, hm, hmsort⟩ := hx s hs
  have hrelease : Writes sort b b (release k (underWay (course x.run s).1)).run :=
    writes_release _ _
  obtain ⟨hend, n, hn, hnsort⟩ := hrelease _ hmiddle
  have hall : (course (release k (underWay (course x.run s).1)).run (course x.run s).2).2.records =
      (n ++ m) ++ s.records := by
    rw [hn, hm, List.append_assoc]
  rw [course_thenReleasing]
  generalize course (release k _).run (course x.run s).2 = ending at hend hall ⊢
  obtain ⟨q, s'⟩ := ending
  cases q with
  | ok _ => exact ⟨hend, n ++ m, hall, List.forall_mem_append.mpr ⟨hnsort, hmsort⟩⟩
  | error f => exact ⟨hend, n ++ m, hall, List.forall_mem_append.mpr ⟨hnsort, hmsort⟩⟩

theorem Writes.inTransaction {x : Attempt α} (k : Nat) (hx : Writes sort a a x.run) :
    Writes sort a a (inTransaction k x).run := by
  refine Writes.andThen (writes_call _ _) fun _ => ?_
  refine Writes.andThen hx.lift fun r => ?_
  cases r with
  | ok y => exact Writes.andThen (writes_call _ _) fun _ => writes_ok y
  | error f => exact Writes.andThen (writes_note _).lift fun _ => writes_throw f

/-! ## Repeated attempts -/

theorem writes_runFrom {ε δ : Type} {r : Retry Run ε δ} {attempt : Nat → Run (Except ε α)}
    (hannounce : ∀ number delay e, Writes sort a a (r.announce number delay e))
    (hwait : ∀ delay, Writes sort a a (r.wait delay))
    (hattempt : ∀ number, Writes sort a a (attempt number)) (number remaining : Nat) :
    Writes sort a a (r.runFrom attempt number remaining) := by
  induction remaining generalizing number with
  | zero => exact hattempt number
  | succ remaining ih =>
    refine Writes.bind (hattempt number) fun q => ?_
    cases q with
    | ok y => exact writes_pure _
    | error e =>
      simp only
      split
      · split
        · exact writes_pure _
        · refine Writes.bind (hannounce _ _ _) fun _ => ?_
          exact Writes.bind (hwait _) fun _ => ih (number + 1)
      · exact writes_pure _

theorem writes_runFrom_attempt {ε δ : Type} {r : Retry Attempt ε δ}
    {attempt : Nat → Attempt (Except ε α)}
    (hannounce : ∀ number delay e, Writes sort a a (r.announce number delay e).run)
    (hwait : ∀ delay, Writes sort a a (r.wait delay).run)
    (hattempt : ∀ number, Writes sort a a (attempt number).run) (number remaining : Nat) :
    Writes sort a a (r.runFrom attempt number remaining).run := by
  induction remaining generalizing number with
  | zero => exact hattempt number
  | succ remaining ih =>
    refine Writes.andThen (hattempt number) fun q => ?_
    cases q with
    | ok y => exact writes_ok _
    | error e =>
      simp only
      split
      · split
        · exact writes_ok _
        · refine Writes.andThen (hannounce _ _ _) fun _ => ?_
          exact Writes.andThen (hwait _) fun _ => ih (number + 1)
      · exact writes_ok _

end QueryGateway.Proofs.Database.Records
