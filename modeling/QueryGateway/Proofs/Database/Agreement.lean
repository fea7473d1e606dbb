import QueryGateway.Proofs.Database.Calls
import QueryGateway.Retry

/-!
Two runs side by side. An observer who is not shown the URL by which a database is reached can tell
sessions apart by everything else that they hold. Works agree if they give the same and leave alike
sessions alike; what is put together from works that agree agrees again.
-/

set_option autoImplicit false
set_option relaxedAutoImplicit false

namespace QueryGateway.Proofs.Database.Agreement

open QueryGateway.Database
open QueryGateway.Proofs.Database.Calls (course course_bind course_call course_release
  course_thenReleasing resultOf underWay)

variable {α β : Type}

/-- A call as it looks to somebody who is not shown the URL of the database. -/
def veil : Call → Call
  | .createPool _ options => .createPool "" options
  | c => c

/-- An entry as it looks without the URL. -/
def veilEntry (e : Entry) : Entry := ⟨veil e.call, e.succeeded⟩

/-- Sessions that differ in nothing but URLs in their journals. -/
structure Alike (s t : Session) : Prop where
  script : s.script = t.script
  hasPool : s.hasPool = t.hasPool
  opened : s.opened = t.opened
  journal : s.journal.map veilEntry = t.journal.map veilEntry
  scope : s.scope = t.scope
  records : s.records = t.records
  spans : s.spans = t.spans

theorem Alike.refl (s : Session) : Alike s s := ⟨rfl, rfl, rfl, rfl, rfl, rfl, rfl⟩

/-- Works that give the same and leave sessions alike, wherever they start from alike sessions. -/
def Agree (work work' : Run α) : Prop :=
  ∀ s t, Alike s t → (course work s).1 = (course work' t).1 ∧
    Alike (course work s).2 (course work' t).2

variable {work work' : Run α}

theorem agree_pure (a : α) : Agree (pure a) (pure a) := fun _ _ h => ⟨rfl, h⟩

theorem Agree.bind {f f' : α → Run β} (hwork : Agree work work') (hf : ∀ a, Agree (f a) (f' a)) :
    Agree (work >>= f) (work' >>= f') := by
  intro s t h
  obtain ⟨ha, hmiddle⟩ := hwork s t h
  have hrest := hf (course work s).1 _ _ hmiddle
  rw [course_bind, course_bind, ← ha]
  exact hrest

theorem Agree.andThen {x x' : Attempt α} {f f' : α → Attempt β} (hx : Agree x.run x'.run)
    (hf : ∀ a, Agree (f a).run (f' a).run) : Agree (x >>= f).run (x' >>= f').run := by
  have hcont : ∀ r : Except Failure α, Agree (ExceptT.bindCont f r) (ExceptT.bindCont f' r) := by
    intro r
    cases r with
    | error e => exact agree_pure _
    | ok a => exact hf a
  exact Agree.bind hx hcont

theorem Agree.lift (h : Agree work work') :
    Agree (ExceptT.lift work : Attempt α).run (ExceptT.lift work' : Attempt α).run :=
  Agree.bind h fun a => agree_pure (Except.ok a)

theorem agree_ok (a : α) : Agree (pure a : Attempt α).run (pure a : Attempt α).run :=
  agree_pure _

theorem agree_throw (f : Failure) : Agree (throw f : Attempt α).run (throw f : Attempt α).run :=
  agree_pure (Except.error f)

theorem agree_get {f f' : Session → Run α} (h : ∀ s t, Alike s t → Agree (f s) (f' t)) :
    Agree (get >>= f) (get >>= f') := fun s t hst => h s t hst s t hst

theorem agree_lookAt {f f' : Session → Attempt α}
    (h : ∀ s t, Alike s t → Agree (f s).run (f' t).run) :
    Agree (get >>= f : Attempt α).run (get >>= f' : Attempt α).run :=
  fun s t hst => h s t hst s t hst

theorem agree_modify {f f' : Session → Session} (h : ∀ s t, Alike s t → Alike (f s) (f' t)) :
    Agree (modify f : Run PUnit) (modify f') := fun s t hst => ⟨rfl, h s t hst⟩

/-! ## What a session is told -/

theorem Alike.logging {s t : Session} (h : Alike s t) (r : Log.Record) :
    Alike (s.logging r) (t.logging r) := by
  refine ⟨h.script, h.hasPool, h.opened, h.journal, h.scope, ?_, h.spans⟩
  rw [Session.logging, Session.logging, h.scope, h.records]

theorem agree_log (level : Log.Level) (logger message : String) (fields : Fields) :
    Agree (log level logger message fields) (log level logger message fields) :=
  agree_modify fun _ _ h => h.logging _

theorem agree_logFailure (logger message : String) (fields : Fields) (f : Failure) :
    Agree (logFailure logger message fields f) (logFailure logger message fields f) :=
  agree_modify fun _ _ h => h.logging _

private theorem agree_tell (e : Telemetry.SpanEvent) : Agree (tell e) (tell e) :=
  agree_modify fun _ _ h =>
    ⟨h.script, h.hasPool, h.opened, h.journal, h.scope, h.records, congrArg (e :: ·) h.spans⟩

private theorem agree_tellAll (es : List Telemetry.SpanEvent) :
    Agree (es.forM tell) (es.forM tell) := by
  induction es with
  | nil => exact agree_pure _
  | cons e es ih => exact Agree.bind (agree_tell e) fun _ => ih

theorem Agree.inSpan {x x' : Attempt α} (span : Telemetry.Span) (hx : Agree x.run x'.run) :
    Agree (inSpan span x).run (Database.inSpan span x').run := by
  refine Agree.bind (agree_tellAll span.opening) fun _ => ?_
  refine Agree.bind hx fun r => ?_
  exact Agree.bind (agree_tellAll (span.closing r)) fun _ => agree_pure _

/-! ## Calls -/

theorem agree_note (c : Call) : Agree (note c) (note c) :=
  agree_modify fun _ _ h =>
    ⟨h.script, h.hasPool, h.opened, congrArg (veilEntry ⟨c, true⟩ :: ·) h.journal, h.scope,
      h.records, h.spans⟩

theorem Alike.afterCall {s t : Session} (h : Alike s t) (kind : CallKind) {c c' : Call}
    (hc : veil c = veil c') : Alike (s.afterCall kind c) (t.afterCall kind c') := by
  refine ⟨?_, h.hasPool, h.opened, ?_, h.scope, h.records, h.spans⟩
  · simp only [Session.afterCall, h.script]
  · simp only [Session.afterCall, List.map_cons, h.script, h.journal]
    rw [veilEntry, veilEntry, hc]

theorem agree_call (kind : CallKind) {c c' : Call} (hc : veil c = veil c') :
    Agree (call kind c).run (call kind c').run := by
  intro s t h
  rw [course_call, course_call, h.script]
  exact ⟨rfl, h.afterCall kind hc⟩

theorem agree_checkOut : Agree checkOut.run checkOut.run := by
  -- A connection is numbered by how many were opened before, on both sides as many.
  refine agree_lookAt fun s t h => ?_
  rw [← h.opened]
  refine Agree.andThen (agree_call _ rfl) fun _ => ?_
  refine Agree.andThen (Agree.lift (agree_modify fun _ _ h => ?_)) fun _ => agree_ok _
  exact ⟨h.script, h.hasPool, rfl, h.journal, h.scope, h.records, h.spans⟩

theorem agree_release (c : Nat) (pending : Option Failure) :
    Agree (release c pending).run (release c pending).run := by
  intro s t h
  rw [course_release, course_release, h.script]
  exact ⟨rfl, h.afterCall .release rfl⟩

theorem Agree.thenReleasing {x x' : Attempt α} (c : Nat) (hx : Agree x.run x'.run) :
    Agree (thenReleasing c x).run (Database.thenReleasing c x').run := by
  intro s t h
  obtain ⟨hr, hmiddle⟩ := hx s t h
  obtain ⟨hq, hend⟩ := agree_release c (underWay (course x.run s).1) _ _ hmiddle
  rw [course_thenReleasing, course_thenReleasing, ← hr]
  generalize course (release c _).run (course x.run s).2 = ending at hq hend ⊢
  generalize course (release c _).run (course x'.run t).2 = ending' at hq hend ⊢
  obtain ⟨q, s'⟩ := ending
  obtain ⟨q', t'⟩ := ending'
  cases hq
  cases q with
  | ok _ => exact ⟨rfl, hend⟩
  | error f => exact ⟨rfl, hend⟩

theorem Agree.inTransaction {x x' : Attempt α} (c : Nat) (hx : Agree x.run x'.run) :
    Agree (inTransaction c x).run (Database.inTransaction c x').run := by
  refine Agree.andThen (agree_call _ rfl) fun _ => ?_
  refine Agree.andThen hx.lift fun r => ?_
  cases r with
  | ok a => exact Agree.andThen (agree_call _ rfl) fun _ => agree_ok a
  | error f => exact Agree.andThen (agree_note _).lift fun _ => agree_throw f

/-! ## Repeated attempts -/

theorem agree_runFrom {ε δ : Type} {r r' : Retry Run ε δ}
    {attempt attempt' : Nat → Run (Except ε α)}
    (hpolicy : r.policy = r'.policy) (htimes : r.times = r'.times) (hadmits : r.admits = r'.admits)
    (hannounce : ∀ number delay f, Agree (r.announce number delay f) (r'.announce number delay f))
    (hwait : ∀ delay, Agree (r.wait delay) (r'.wait delay))
    (hattempt : ∀ number, Agree (attempt number) (attempt' number)) (number remaining : Nat) :
    Agree (r.runFrom attempt number remaining) (r'.runFrom attempt' number remaining) := by
  induction remaining generalizing number with
  | zero => exact hattempt number
  | succ remaining ih =>
    refine Agree.bind (hattempt number) fun q => ?_
    cases q with
    | ok a => exact agree_pure _
    | error e =>
      have hdelay : r.delayAfter number = r'.delayAfter number := by
        rw [Retry.delayAfter, Retry.delayAfter, hpolicy, htimes]
      simp only [hadmits, hdelay]
      split
      · split
        · exact agree_pure _
        · refine Agree.bind (hannounce _ _ _) fun _ => ?_
          exact Agree.bind (hwait _) fun _ => ih (number + 1)
      · exact agree_pure _

theorem agree_runFrom_attempt {ε δ : Type} {r r' : Retry Attempt ε δ}
    {attempt attempt' : Nat → Attempt (Except ε α)}
    (hpolicy : r.policy = r'.policy) (htimes : r.times = r'.times) (hadmits : r.admits = r'.admits)
    (hannounce : ∀ number delay f,
      Agree (r.announce number delay f).run (r'.announce number delay f).run)
    (hwait : ∀ delay, Agree (r.wait delay).run (r'.wait delay).run)
    (hattempt : ∀ number, Agree (attempt number).run (attempt' number).run)
    (number remaining : Nat) :
    Agree (r.runFrom attempt number remaining).run (r'.runFrom attempt' number remaining).run := by
  induction remaining generalizing number with
  | zero => exact hattempt number
  | succ remaining ih =>
    refine Agree.andThen (hattempt number) fun q => ?_
    cases q with
    | ok a => exact agree_ok _
    | error e =>
      have hdelay : r.delayAfter number = r'.delayAfter number := by
        rw [Retry.delayAfter, Retry.delayAfter, hpolicy, htimes]
      simp only [hadmits, hdelay]
      split
      · split
        · exact agree_ok _
        · refine Agree.andThen (hannounce _ _ _) fun _ => ?_
          exact Agree.andThen (hwait _) fun _ => ih (number + 1)
      · exact agree_ok _

end QueryGateway.Proofs.Database.Agreement
