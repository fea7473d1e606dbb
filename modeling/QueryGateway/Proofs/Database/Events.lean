import QueryGateway.Proofs.Database.Calls

/-!
Calls together with their outcomes. How work in a session goes depends on the outcomes that are
still to come, on whether there is a pool and on the number of the next connection, and on nothing
else that the session holds. Work is described by the events that it goes through from such a
prospect, and by what it gives.
-/

set_option autoImplicit false
set_option relaxedAutoImplicit false

namespace QueryGateway.Proofs.Database.Events

open QueryGateway.Database
open QueryGateway.Telemetry (Span)
open QueryGateway.Proofs.Database.Calls (course course_bind course_call course_release
  course_thenReleasing resultOf underWay)

variable {α β : Type}

/-- A call with the outcome that it had. -/
structure Event where
  call : Call
  outcome : Outcome

namespace Event

def entry (e : Event) : Entry := ⟨e.call, e.outcome.succeeded⟩

def sure (c : Call) : Event := ⟨c, .done .plain⟩

end Event

abbrev entries (events : List Event) : List Entry := events.map Event.entry

def kindOf : Call → Option CallKind
  | .createPool _ _ => some .createPool
  | .checkOut _ => some .checkOut
  | .start _ => some .start
  | .execute _ _ _ => some .execute
  | .commit _ => some .commit
  | .release _ => some .release
  | .rollBack _ | .sleep _ | .disposePool => none

/-! ## Prospects -/

/-- What decides how work goes: the outcomes to come, whether there is a pool, and the number that
the next connection gets. -/
structure Prospect where
  script : Script
  hasPool : Bool
  opened : Nat

def prospect (s : Session) : Prospect := ⟨s.script, s.hasPool, s.opened⟩

namespace Prospect

def outcome (p : Prospect) (c : Call) : Outcome :=
  match kindOf c with
  | some kind => p.script.next kind
  | none => .done .plain

/-- Whether an event may come next: its outcome is foreseen, and a connection has its number. -/
def Admits (p : Prospect) (e : Event) : Prop :=
  e.outcome = p.outcome e.call ∧ ∀ c, e.call = .checkOut c → c = p.opened

def after (p : Prospect) (e : Event) : Prospect where
  script :=
    match kindOf e.call with
    | some kind => p.script.rest kind
    | none => p.script
  hasPool :=
    match e.call with
    | .createPool _ _ => p.hasPool || e.outcome.succeeded
    | .disposePool => false
    | _ => p.hasPool
  opened :=
    match e.call with
    | .checkOut _ => if e.outcome.succeeded then p.opened + 1 else p.opened
    | _ => p.opened

theorem after_createPool_failed (p : Prospect) (url : String) (options : PoolOptions)
    (f : Failure) :
    p.after ⟨.createPool url options, .failed f⟩ =
      { p with script := p.script.rest .createPool } := by
  simp [after, kindOf, Outcome.succeeded]

theorem after_createPool_done (p : Prospect) (url : String) (options : PoolOptions)
    (reply : Reply) : p.after ⟨.createPool url options, .done reply⟩ =
      { p with script := p.script.rest .createPool, hasPool := true } := by
  simp [after, kindOf, Outcome.succeeded]

def through (p : Prospect) (events : List Event) : Prospect := events.foldl after p

/-- Whether events may come next, one after another. -/
def Allows : Prospect → List Event → Prop
  | _, [] => True
  | p, e :: rest => p.Admits e ∧ (p.after e).Allows rest

theorem through_append (p : Prospect) (m n : List Event) :
    p.through (m ++ n) = (p.through m).through n :=
  List.foldl_append

private theorem allows_append (p : Prospect) (m n : List Event) :
    p.Allows (m ++ n) ↔ p.Allows m ∧ (p.through m).Allows n := by
  induction m generalizing p with
  | nil => exact (iff_of_eq (true_and _)).symm
  | cons e m ih =>
    have hrest := ih (p.after e)
    rw [List.cons_append, Allows, Allows, hrest, and_assoc]
    rfl

end Prospect

/-! ## Outcomes to come -/

private theorem mem_script_of_after {p : Prospect} {ev : Event} {kind : CallKind} {o : Outcome}
    (h : o ∈ (p.after ev).script kind) : o ∈ p.script kind := by
  simp only [Prospect.after] at h
  cases hkind : kindOf ev.call with
  | none => rwa [hkind] at h
  | some kind' =>
    rw [hkind] at h
    by_cases hsame : kind = kind'
    · simp only [Script.rest, if_pos hsame] at h
      exact List.mem_of_mem_tail h
    · simpa only [Script.rest, if_neg hsame] using h

theorem mem_script_of_through {p : Prospect} {events : List Event} {kind : CallKind} {o : Outcome}
    (h : o ∈ (p.through events).script kind) : o ∈ p.script kind := by
  induction events generalizing p with
  | nil => exact h
  | cons ev events ih => exact mem_script_of_after (ih h)

theorem outcome_mem_script {p : Prospect} {events : List Event} (h : p.Allows events)
    {kind : CallKind} : ∀ ev ∈ events, kindOf ev.call = some kind →
      ev.outcome ∈ p.script kind ∨ ev.outcome = .done .plain := by
  induction events generalizing p with
  | nil => simp
  | cons first events ih =>
    obtain ⟨hfirst, hrest⟩ := h
    refine List.forall_mem_cons.mpr ⟨fun hkind => ?_, fun ev hev hkind => ?_⟩
    · have houtcome : first.outcome = p.script.next kind := by
        rw [hfirst.1, Prospect.outcome, hkind]
      rw [houtcome, Script.next]
      cases p.script kind with
      | nil => exact .inr rfl
      | cons o os => exact .inl List.mem_cons_self
    · exact (ih hrest ev hev hkind).imp_left mem_script_of_after

theorem failed_mem_script {p : Prospect} {events : List Event} (h : p.Allows events) {f : Failure} :
    ∀ ev ∈ events, ev.outcome = .failed f → ∃ kind, .failed f ∈ p.script kind := by
  induction events generalizing p with
  | nil => simp
  | cons first events ih =>
    obtain ⟨hfirst, hrest⟩ := h
    refine List.forall_mem_cons.mpr ⟨fun hfailed => ?_, fun ev hev hfailed => ?_⟩
    · rw [hfirst.1, Prospect.outcome] at hfailed
      split at hfailed
      · rename_i kind _
        refine ⟨kind, ?_⟩
        rw [Script.next] at hfailed
        cases hscript : p.script kind with
        | nil =>
          rw [hscript] at hfailed
          cases hfailed
        | cons o os =>
          rw [hscript] at hfailed
          cases hfailed
          exact List.mem_cons_self
      · cases hfailed
    · obtain ⟨kind, hmem⟩ := ih hrest ev hev hfailed
      exact ⟨kind, mem_script_of_after hmem⟩

/-! ## Work from a prospect -/

/-- In every session with some prospect, work goes through certain events and gives a certain
result. -/
structure Gives (work : Run α) (p : Prospect) (events : List Event) (a : α) : Prop where
  allowed : p.Allows events
  course : ∀ s, prospect s = p → (course work s).1 = a ∧
    prospect (course work s).2 = p.through events ∧
    (course work s).2.journal = (entries events).reverse ++ s.journal

theorem exists_prospect (p : Prospect) : ∃ s, prospect s = p :=
  ⟨{ script := p.script, hasPool := p.hasPool, opened := p.opened }, rfl⟩

/-- From every prospect, the events of work obey a rule together with what it gives. -/
def Unfolds (work : Run α) (rule : List Event → α → Prop) : Prop :=
  ∀ p, ∃ events a, Gives work p events a ∧ rule events a

theorem gives_pure (a : α) (p : Prospect) : Gives (pure a) p [] a :=
  ⟨trivial, fun _ hs => ⟨rfl, hs, rfl⟩⟩

theorem Gives.bind {work : Run α} {f : α → Run β} {p : Prospect} {m n : List Event} {a : α} {b : β}
    (hwork : Gives work p m a) (hf : Gives (f a) (p.through m) n b) :
    Gives (work >>= f) p (m ++ n) b := by
  refine ⟨(p.allows_append m n).mpr ⟨hwork.allowed, hf.allowed⟩, ?_⟩
  intro s hs
  obtain ⟨ha, hmiddle, hm⟩ := hwork.course s hs
  obtain ⟨hb, hend, hn⟩ := hf.course _ hmiddle
  rw [course_bind, ha]
  refine ⟨hb, ?_, ?_⟩
  · rw [hend, p.through_append]
  · rw [hn, hm, entries, entries, entries, List.map_append, List.reverse_append,
      List.append_assoc]

theorem Gives.lift {work : Run α} {p : Prospect} {events : List Event} {a : α}
    (h : Gives work p events a) :
    Gives (ExceptT.lift work : Attempt α).run p events (.ok a) := by
  have hall : Gives (work >>= fun a => pure (Except.ok a) : Run (Except Failure α)) p (events ++ [])
      (.ok a) := h.bind (gives_pure _ _)
  rwa [List.append_nil] at hall

theorem Gives.andThen {x : Attempt α} {f : α → Attempt β} {p : Prospect} {m n : List Event} {a : α}
    {r : Except Failure β} (hx : Gives x.run p m (.ok a)) (hf : Gives (f a).run (p.through m) n r) :
    Gives (x >>= f).run p (m ++ n) r := by
  have hcont : Gives (ExceptT.bindCont f (.ok a)) (p.through m) n r := hf
  exact Gives.bind (f := ExceptT.bindCont f) hx hcont

theorem Gives.stop {x : Attempt α} {f : α → Attempt β} {p : Prospect} {events : List Event}
    {g : Failure} (hx : Gives x.run p events (.error g)) :
    Gives (x >>= f).run p events (.error g) := by
  have hall : Gives (x.run >>= ExceptT.bindCont f) p (events ++ []) (.error g) :=
    hx.bind (gives_pure (Except.error g) _)
  rwa [List.append_nil] at hall

theorem gives_modify {f : Session → Session} (hprospect : ∀ s, prospect (f s) = prospect s)
    (hjournal : ∀ s, (f s).journal = s.journal) (p : Prospect) :
    Gives (modify f : Run PUnit) p [] ⟨⟩ := by
  refine ⟨trivial, ?_⟩
  intro s hs
  exact ⟨rfl, (hprospect s).trans hs, hjournal s⟩

theorem gives_log (level : Log.Level) (logger message : String) (fields : Fields) (p : Prospect) :
    Gives (log level logger message fields) p [] () := by
  apply gives_modify <;> intro s <;> rfl

theorem gives_logFailure (logger message : String) (fields : Fields) (f : Failure) (p : Prospect) :
    Gives (logFailure logger message fields f) p [] () := by
  apply gives_modify <;> intro s <;> rfl

private theorem gives_tell (e : Telemetry.SpanEvent) (p : Prospect) : Gives (tell e) p [] () := by
  apply gives_modify <;> intro s <;> rfl

private theorem gives_forM {γ : Type} {f : γ → Run PUnit} (hf : ∀ x p, Gives (f x) p [] ⟨⟩)
    (xs : List γ)
    (p : Prospect) : Gives (xs.forM f) p [] ⟨⟩ := by
  induction xs with
  | nil => exact gives_pure _ p
  | cons x xs ih => exact Gives.bind (hf x p) ih

theorem gives_note {c : Call} (hkind : kindOf c = none)
    (hafter : ∀ p : Prospect, p.after (.sure c) = p)
    (p : Prospect) : Gives (note c) p [.sure c] () := by
  have hadmits : p.Admits (.sure c) := by
    refine ⟨?_, ?_⟩
    · rw [Event.sure, Prospect.outcome, hkind]
    · rintro k rfl
      cases hkind
  refine ⟨⟨hadmits, trivial⟩, ?_⟩
  intro s hs
  exact ⟨rfl, hs.trans (hafter p).symm, rfl⟩

theorem gives_wait (delay : Number.Binary64) (p : Prospect) :
    Gives (wait delay) p [.sure (.sleep delay)] () :=
  gives_note rfl (fun _ => rfl) p

/-- A call that changes nothing but the outcomes to come. -/
theorem gives_call (kind : CallKind) (c : Call) (hkind : kindOf c = some kind)
    (hcheckOut : kind ≠ .checkOut)
    (hafter : ∀ (p : Prospect) o, p.after ⟨c, o⟩ = { p with script := p.script.rest kind })
    (p : Prospect) :
    Gives (call kind c).run p [⟨c, p.script.next kind⟩] (resultOf (p.script.next kind)) := by
  have hadmits : p.Admits ⟨c, p.script.next kind⟩ := by
    refine ⟨?_, ?_⟩
    · rw [Prospect.outcome, hkind]
    · rintro k rfl
      cases hkind
      exact absurd rfl hcheckOut
  refine ⟨⟨hadmits, trivial⟩, ?_⟩
  rintro s rfl
  have hend : (prospect s).through [⟨c, s.script.next kind⟩] =
      { prospect s with script := s.script.rest kind } := hafter _ _
  rw [course_call]
  exact ⟨rfl, hend.symm, rfl⟩

private theorem course_checkOut (s : Session) :
    course checkOut.run s =
      match s.script.next .checkOut with
      | .failed f => (.error f, s.afterCall .checkOut (.checkOut s.opened))
      | .done _ => (.ok s.opened,
          { s.afterCall .checkOut (.checkOut s.opened) with opened := s.opened + 1 }) := by
  have hrun : course checkOut.run s =
      course ((call .checkOut (.checkOut s.opened)).run >>= ExceptT.bindCont fun _ => do
        modify fun s' => { s' with opened := s.opened + 1 }
        return s.opened) s := rfl
  rw [hrun, course_bind, course_call]
  cases s.script.next .checkOut with
  | failed f => rfl
  | done reply => rfl

theorem gives_checkOut (p : Prospect) :
    Gives checkOut.run p [⟨.checkOut p.opened, p.script.next .checkOut⟩]
      ((resultOf (p.script.next .checkOut)).map fun _ => p.opened) := by
  have hadmits : p.Admits ⟨.checkOut p.opened, p.script.next .checkOut⟩ := by
    refine ⟨rfl, ?_⟩
    rintro k ⟨⟩
    rfl
  refine ⟨⟨hadmits, trivial⟩, ?_⟩
  rintro s rfl
  have hjournal : (course checkOut.run s).2.journal =
      ⟨.checkOut s.opened, (s.script.next .checkOut).succeeded⟩ :: s.journal := by
    rw [course_checkOut]
    split <;> rfl
  refine ⟨?_, ?_, hjournal⟩
  · rw [course_checkOut]
    change _ = (resultOf (s.script.next .checkOut)).map fun _ => s.opened
    cases s.script.next .checkOut with
    | failed f => rfl
    | done reply => rfl
  · rw [course_checkOut]
    change _ = (prospect s).after ⟨.checkOut s.opened, s.script.next .checkOut⟩
    cases s.script.next .checkOut with
    | failed f => rfl
    | done reply => rfl

/-! ## Rules -/

theorem Unfolds.mono {work : Run α} {rule rule' : List Event → α → Prop} (h : Unfolds work rule)
    (himp : ∀ events a, rule events a → rule' events a) : Unfolds work rule' := by
  intro p
  obtain ⟨events, a, hgives, hrule⟩ := h p
  exact ⟨events, a, hgives, himp _ _ hrule⟩

theorem unfolds_pure (a : α) : Unfolds (pure a) fun events b => events = [] ∧ b = a :=
  fun p => ⟨[], a, gives_pure a p, rfl, rfl⟩

private theorem unfolds_silent {work : Run α} {a : α} (h : ∀ p, Gives work p [] a) :
    Unfolds work fun events b => events = [] ∧ b = a :=
  fun p => ⟨[], a, h p, rfl, rfl⟩

theorem unfolds_call (kind : CallKind) (c : Call) (hkind : kindOf c = some kind)
    (hcheckOut : kind ≠ .checkOut)
    (hafter : ∀ (p : Prospect) o, p.after ⟨c, o⟩ = { p with script := p.script.rest kind }) :
    Unfolds (call kind c).run fun events r => ∃ o, events = [⟨c, o⟩] ∧ r = resultOf o :=
  fun p => ⟨_, _, gives_call kind c hkind hcheckOut hafter p, _, rfl, rfl⟩

theorem Unfolds.bind {work : Run α} {f : α → Run β} {rule : List Event → α → Prop}
    {q : α → List Event → β → Prop} (hwork : Unfolds work rule) (hf : ∀ a, Unfolds (f a) (q a)) :
    Unfolds (work >>= f) fun events b =>
      ∃ m a n, events = m ++ n ∧ rule m a ∧ q a n b := by
  intro p
  obtain ⟨m, a, hm, hrule⟩ := hwork p
  obtain ⟨n, b, hn, hrest⟩ := hf a (p.through m)
  exact ⟨m ++ n, b, hm.bind hn, m, a, n, rfl, hrule, hrest⟩

theorem Unfolds.andThen {x : Attempt α} {f : α → Attempt β}
    {rule : List Event → Except Failure α → Prop}
    {q : α → List Event → Except Failure β → Prop} (hx : Unfolds x.run rule)
    (hf : ∀ a, Unfolds (f a).run (q a)) :
    Unfolds (x >>= f).run fun events r =>
      (∃ e, r = .error e ∧ rule events (.error e)) ∨
        ∃ m a n, events = m ++ n ∧ rule m (.ok a) ∧ q a n r := by
  have hcont : ∀ r : Except Failure α, Unfolds (ExceptT.bindCont f r) fun events b =>
      (∃ e, r = .error e ∧ b = .error e ∧ events = []) ∨ ∃ a, r = .ok a ∧ q a events b := by
    intro r
    cases r with
    | error e => exact fun p => ⟨[], .error e, gives_pure _ p, .inl ⟨e, rfl, rfl, rfl⟩⟩
    | ok a => exact (hf a).mono fun _ _ hrest => .inr ⟨a, rfl, hrest⟩
  refine (Unfolds.bind hx hcont).mono ?_
  rintro events r ⟨m, a, n, rfl, hrule, ⟨e, rfl, rfl, rfl⟩ | ⟨a, rfl, hrest⟩⟩
  · exact .inl ⟨e, rfl, by rwa [List.append_nil]⟩
  · exact .inr ⟨m, a, n, rfl, hrule, hrest⟩

theorem Unfolds.lift {work : Run α} {rule : List Event → α → Prop} (h : Unfolds work rule) :
    Unfolds (ExceptT.lift work : Attempt α).run fun events r =>
      ∃ a, r = .ok a ∧ rule events a := by
  refine (Unfolds.bind h fun a => unfolds_pure (Except.ok a)).mono ?_
  rintro events r ⟨m, a, n, rfl, hrule, rfl, rfl⟩
  exact ⟨a, rfl, by rwa [List.append_nil]⟩

theorem Unfolds.afterSilent {silent : Run Unit} {x : Attempt α}
    {rule : List Event → Except Failure α → Prop} (hsilent : ∀ p, Gives silent p [] ())
    (hx : Unfolds x.run rule) :
    Unfolds (ExceptT.lift silent >>= fun _ => x : Attempt α).run rule := by
  refine (Unfolds.andThen (unfolds_silent hsilent).lift fun _ => hx).mono ?_
  rintro events r (⟨e, rfl, _, h, _⟩ | ⟨m, a, n, rfl, ⟨_, _, rfl, _⟩, hrule⟩)
  · cases h
  · exact hrule

theorem Unfolds.thenSilent {silent : α → Run Unit} {x : Attempt α}
    {rule : List Event → Except Failure α → Prop} (hx : Unfolds x.run rule)
    (hsilent : ∀ a p, Gives (silent a) p [] ()) :
    Unfolds (x >>= fun a => ExceptT.lift (silent a) >>= fun _ => pure a : Attempt α).run rule := by
  have hrest : ∀ a, Unfolds (ExceptT.lift (silent a) >>= fun _ => pure a : Attempt α).run
      fun events r => events = [] ∧ r = .ok a := fun a =>
    Unfolds.afterSilent (hsilent a) (unfolds_pure (Except.ok a))
  refine (Unfolds.andThen hx hrest).mono ?_
  rintro events r (⟨f, rfl, hrule⟩ | ⟨m, a, n, rfl, hrule, rfl, rfl⟩)
  · exact hrule
  · rwa [List.append_nil]

/-! ## Rules about events alone -/

/-- A rule that holds of events as soon as it holds of the pieces that they come in. -/
structure Closed (rule : List Event → Prop) : Prop where
  nil : rule []
  append : ∀ {m n}, rule m → rule n → rule (m ++ n)

/-- Work whose events obey a rule, whatever it gives. -/
def Keeps (rule : List Event → Prop) (work : Run α) : Prop :=
  Unfolds work fun events _ => rule events

theorem closed_forall (sort : Call → Prop) : Closed fun events => ∀ e ∈ events, sort e.call where
  nil := by simp
  append hm hn := List.forall_mem_append.mpr ⟨hm, hn⟩

variable {rule : List Event → Prop}

theorem Gives.keeps {work : Run α} {a : α} (hrule : Closed rule) (h : ∀ p, Gives work p [] a) :
    Keeps rule work :=
  fun p => ⟨[], a, h p, hrule.nil⟩

theorem keeps_pure (hrule : Closed rule) (a : α) : Keeps rule (pure a) :=
  Gives.keeps hrule (gives_pure a)

theorem keeps_ok (hrule : Closed rule) (a : α) : Keeps rule (pure a : Attempt α).run :=
  keeps_pure hrule _

theorem keeps_throw (hrule : Closed rule) (f : Failure) :
    Keeps rule (throw f : Attempt α).run :=
  keeps_pure hrule (Except.error f)

theorem Keeps.bind {work : Run α} {f : α → Run β} (hrule : Closed rule) (hwork : Keeps rule work)
    (hf : ∀ a, Keeps rule (f a)) : Keeps rule (work >>= f) := by
  refine (Unfolds.bind hwork hf).mono ?_
  rintro events b ⟨m, a, n, rfl, hm, hn⟩
  exact hrule.append hm hn

theorem Keeps.andThen {x : Attempt α} {f : α → Attempt β} (hrule : Closed rule)
    (hx : Keeps rule x.run) (hf : ∀ a, Keeps rule (f a).run) : Keeps rule (x >>= f).run := by
  refine (Unfolds.andThen hx hf).mono ?_
  rintro events r (⟨e, rfl, hm⟩ | ⟨m, a, n, rfl, hm, hn⟩)
  · exact hm
  · exact hrule.append hm hn

theorem Keeps.lift {work : Run α} (hwork : Keeps rule work) :
    Keeps rule (ExceptT.lift work : Attempt α).run := by
  refine (Unfolds.lift hwork).mono ?_
  rintro events r ⟨a, rfl, hm⟩
  exact hm

/-! ## Work put together -/

theorem Gives.inSpan {x : Attempt α} {p : Prospect} {events : List Event} {r : Except Failure α}
    (span : Span) (hx : Gives x.run p events r) :
    Gives (inSpan span x).run p events (Span.outcome r) := by
  have htell : ∀ (es : List Telemetry.SpanEvent) p, Gives (es.forM tell) p [] ⟨⟩ :=
    gives_forM gives_tell
  have hend : Gives ((span.closing r).forM tell >>= fun _ => pure (Span.outcome r))
      (p.through events) [] (Span.outcome r) := (htell _ _).bind (gives_pure _ _)
  have hwork : Gives (x.run >>= fun r => (span.closing r).forM tell >>= fun _ =>
      pure (Span.outcome r)) p (events ++ []) (Span.outcome r) := hx.bind hend
  have hall : Gives (Database.inSpan span x).run p ([] ++ (events ++ [])) (Span.outcome r) :=
    Gives.bind (htell span.opening p) hwork
  rwa [List.nil_append, List.append_nil] at hall

theorem Unfolds.inSpan {x : Attempt α} {rule : List Event → Except Failure α → Prop}
    (span : Span) (hx : Unfolds x.run rule) :
    Unfolds (Database.inSpan span x).run fun events r =>
      ∃ q, rule events q ∧ r = Span.outcome q := by
  intro p
  obtain ⟨events, r, hgives, hrule⟩ := hx p
  exact ⟨events, _, hgives.inSpan span, r, hrule, rfl⟩

theorem Keeps.inSpan {x : Attempt α} {rule : List Event → Prop} (span : Span)
    (hx : Keeps rule x.run) : Keeps rule (Database.inSpan span x).run := by
  refine (Unfolds.inSpan span hx).mono ?_
  rintro events _ ⟨_, hevents, -⟩
  exact hevents

/-- What some work gives in the end, given how the release of its connection went. -/
def afterRelease (o : Outcome) (r : Except Failure α) : Except Failure α :=
  match o with
  | .failed f => .error (f.within (underWay r))
  | .done _ => r

theorem gives_release (c : Nat) (pending : Option Failure) (p : Prospect) :
    Gives (release c pending).run p [⟨.release c, p.script.next .release⟩]
      (match p.script.next .release with
        | .failed f => .error (f.within pending)
        | .done _ => .ok ()) := by
  have hcall := gives_call .release (.release c) rfl nofun (fun _ _ => rfl) p
  refine ⟨hcall.allowed, ?_⟩
  rintro s rfl
  obtain ⟨_, hend, hjournal⟩ := hcall.course s rfl
  rw [course_call] at hend hjournal
  rw [course_release]
  exact ⟨rfl, hend, hjournal⟩

theorem gives_thenReleasing {x : Attempt α} {p : Prospect} {events : List Event}
    {r : Except Failure α} (c : Nat) (hx : Gives x.run p events r) :
    Gives (thenReleasing c x).run p
      (events ++ [⟨.release c, (p.through events).script.next .release⟩])
      (afterRelease ((p.through events).script.next .release) r) := by
  have hrelease := gives_release c (underWay r) (p.through events)
  refine ⟨(p.allows_append _ _).mpr ⟨hx.allowed, hrelease.allowed⟩, ?_⟩
  intro s hs
  obtain ⟨hr, hmiddle, hm⟩ := hx.course s hs
  obtain ⟨hresult, hend, hn⟩ := hrelease.course _ hmiddle
  rw [course_thenReleasing, hr, p.through_append]
  generalize course (release c (underWay r)).run (course x.run s).2 = ending at hresult hend hn ⊢
  generalize (p.through events).script.next .release = o at hresult hend hn ⊢
  obtain ⟨t, s'⟩ := ending
  simp only at hresult
  subst hresult
  have hjournal : s'.journal = (entries (events ++ [⟨.release c, o⟩])).reverse ++ s.journal := by
    change s'.journal = (entries [⟨.release c, o⟩]).reverse ++ _ at hn
    rw [hn, hm]
    simp [entries]
  cases o with
  | failed f => exact ⟨rfl, hend, hjournal⟩
  | done reply => exact ⟨rfl, hend, hjournal⟩

/-- Work that obeys a rule, with the release of a connection behind it. -/
def Released (c : Nat) (rule : List Event → Except Failure α → Prop) (events : List Event)
    (r : Except Failure α) : Prop :=
  ∃ m q o, rule m q ∧ events = m ++ [⟨.release c, o⟩] ∧ r = afterRelease o q

theorem unfolds_thenReleasing {x : Attempt α} {rule : List Event → Except Failure α → Prop}
    (c : Nat) (hx : Unfolds x.run rule) :
    Unfolds (thenReleasing c x).run (Released c rule) := by
  intro p
  obtain ⟨events, r, hgives, hrule⟩ := hx p
  exact ⟨_, _, gives_thenReleasing c hgives, events, r, _, hrule, rfl, rfl⟩

theorem unfolds_commit (c : Nat) (a : α) : Unfolds (do
      let _ ← call .commit (.commit c)
      return a : Attempt α).run fun events r =>
    ∃ o, events = [⟨.commit c, o⟩] ∧ r = (resultOf o).map fun _ => a := by
  refine (Unfolds.andThen (unfolds_call .commit (.commit c) rfl nofun fun _ _ => rfl) fun _ =>
    unfolds_pure (Except.ok a)).mono ?_
  rintro events r (⟨f, rfl, o, rfl, ho⟩ | ⟨m, reply, n, rfl, ⟨o, rfl, ho⟩, rfl, rfl⟩)
  · exact ⟨o, rfl, by rw [← ho]; rfl⟩
  · exact ⟨o, rfl, by rw [← ho]; rfl⟩

private theorem unfolds_rollBack (c : Nat) (f : Failure) :
    Unfolds (do
      note (.rollBack c)
      throw f : Attempt α).run fun events r =>
        events = [.sure (.rollBack c)] ∧ r = .error f := by
  have hnote : Unfolds (note (.rollBack c)) fun events _ => events = [.sure (.rollBack c)] :=
    fun p => ⟨_, (), gives_note rfl (fun _ => rfl) p, rfl⟩
  refine (Unfolds.andThen hnote.lift fun _ => unfolds_pure (Except.error f)).mono ?_
  rintro events r (⟨_, rfl, _, h, _⟩ | ⟨m, _, n, rfl, ⟨_, _, rfl⟩, rfl, rfl⟩)
  · cases h
  · exact ⟨rfl, rfl⟩

/-- How a transaction ends whose work came to something: it is rolled back or to be committed. -/
inductive Concluded (c : Nat) : Except Failure α → List Event → Except Failure α → Prop
  | rolledBack (f : Failure) : Concluded c (.error f) [.sure (.rollBack c)] (.error f)
  | closed (a : α) (o : Outcome) :
      Concluded c (.ok a) [⟨.commit c, o⟩] ((resultOf o).map fun _ => a)

/-- How a transaction goes whose work obeys a rule: it does not start, is rolled back after its work
failed, or is to be committed. -/
inductive Transacted (c : Nat) (rule : List Event → Except Failure α → Prop) :
    List Event → Except Failure α → Prop
  | unstarted (f : Failure) : Transacted c rule [⟨.start c, .failed f⟩] (.error f)
  | rolledBack {m : List Event} {f : Failure} (reply : Reply) : rule m (.error f) →
      Transacted c rule (⟨.start c, .done reply⟩ :: m ++ [.sure (.rollBack c)]) (.error f)
  | closed {m : List Event} {a : α} (reply : Reply) (o : Outcome) : rule m (.ok a) →
      Transacted c rule (⟨.start c, .done reply⟩ :: m ++ [⟨.commit c, o⟩])
        ((resultOf o).map fun _ => a)

theorem unfolds_inTransaction {x : Attempt α} {rule : List Event → Except Failure α → Prop}
    (c : Nat) (hx : Unfolds x.run rule) :
    Unfolds (inTransaction c x).run (Transacted c rule) := by
  have hstart := unfolds_call .start (.start c) rfl nofun fun _ _ => rfl
  refine (Unfolds.andThen hstart fun _ =>
    Unfolds.andThen (q := Concluded c) hx.lift fun q => ?_).mono ?_
  · cases q with
    | error f =>
      refine (unfolds_rollBack c f).mono ?_
      rintro events r ⟨rfl, rfl⟩
      exact .rolledBack f
    | ok a =>
      refine (unfolds_commit c a).mono ?_
      rintro events r ⟨o, rfl, rfl⟩
      exact .closed a o
  · rintro events r (⟨f, rfl, o, rfl, ho⟩ | ⟨_, reply, n, rfl, ⟨o, rfl, ho⟩, hrest⟩)
    · cases o with
      | failed g =>
        cases ho
        exact .unstarted _
      | done reply => cases ho
    · cases o with
      | failed g => cases ho
      | done reply =>
        rcases hrest with ⟨_, rfl, _, h, _⟩ | ⟨m, q, k, rfl, ⟨_, hq, hrule⟩, hend⟩
        · cases h
        · cases hq
          cases hend with
          | rolledBack f => exact .rolledBack reply hrule
          | closed a o => exact .closed reply o hrule

end QueryGateway.Proofs.Database.Events
