import QueryGateway.Database.Session
import QueryGateway.Proofs.Failure.Texts

/-!
The calls that work in a session makes. A rule about the calls and the result of some work is proved
of its parts first and then of what is put together from them.
-/

set_option autoImplicit false
set_option relaxedAutoImplicit false

namespace QueryGateway.Proofs.Database.Calls

open QueryGateway.Database
open QueryGateway.Proofs.Failure.Texts (HasText within_ne_unwritable)
open QueryGateway.Telemetry (Span)

variable {α β : Type}

/-- What work gives that starts in some session, and the session it leaves. -/
def course (work : Run α) (s : Session) : α × Session := work s

/-- Wherever some work starts, the calls that it adds to the journal, in order, obey a rule together
with what the work gives. -/
def Makes (work : Run α) (rule : List Entry → α → Prop) : Prop :=
  ∀ s, ∃ made, (course work s).2.journal = made.reverse ++ s.journal ∧ rule made (course work s).1

def Only (sort : Call → Prop) (work : Run α) : Prop :=
  Makes work fun made _ => ∀ e ∈ made, sort e.call

variable {work : Run α} {sort : Call → Prop}

theorem course_bind (f : α → Run β) (s : Session) :
    course (work >>= f) s = course (f (course work s).1) (course work s).2 := rfl

def resultOf : Outcome → Except Failure Reply
  | .failed f => .error f
  | .done reply => .ok reply

theorem course_call (kind : CallKind) (c : Call) (s : Session) :
    course (call kind c).run s = (resultOf (s.script.next kind), s.afterCall kind c) := by
  have hrun : course (call kind c).run s =
      course (match s.script.next kind with
        | .failed f => (throw f : Attempt Reply)
        | .done reply => pure reply).run (s.afterCall kind c) := rfl
  rw [hrun]
  cases s.script.next kind with
  | failed f => rfl
  | done reply => rfl

/-! ## Rules -/

theorem Makes.mono {rule rule' : List Entry → α → Prop} (h : Makes work rule)
    (himp : ∀ made a, rule made a → rule' made a) : Makes work rule' := by
  intro s
  obtain ⟨made, hjournal, hrule⟩ := h s
  exact ⟨made, hjournal, himp _ _ hrule⟩

theorem makes_pure (a : α) : Makes (pure a) fun made b => made = [] ∧ b = a :=
  fun _ => ⟨[], rfl, rfl, rfl⟩

theorem Makes.bind {f : α → Run β} {p : List Entry → α → Prop} {q : α → List Entry → β → Prop}
    (hwork : Makes work p) (hf : ∀ a, Makes (f a) (q a)) :
    Makes (work >>= f) fun made b => ∃ m a n, made = m ++ n ∧ p m a ∧ q a n b := by
  intro s
  obtain ⟨m, hm, hp⟩ := hwork s
  obtain ⟨n, hn, hq⟩ := hf (course work s).1 (course work s).2
  refine ⟨m ++ n, ?_, m, _, n, rfl, hp, hq⟩
  rw [course_bind, hn, hm, List.reverse_append, List.append_assoc]

theorem Makes.andThen {x : Attempt α} {f : α → Attempt β} {p : List Entry → Except Failure α → Prop}
    {q : α → List Entry → Except Failure β → Prop} (hx : Makes x.run p)
    (hf : ∀ a, Makes (f a).run (q a)) :
    Makes (x >>= f).run fun made r =>
      (∃ e, r = .error e ∧ p made (.error e)) ∨
        ∃ m a n, made = m ++ n ∧ p m (.ok a) ∧ q a n r := by
  have hcont : ∀ r : Except Failure α, Makes (ExceptT.bindCont f r) fun made b =>
      (∃ e, r = .error e ∧ b = .error e ∧ made = []) ∨ ∃ a, r = .ok a ∧ q a made b := by
    intro r
    cases r with
    | error e => exact fun _ => ⟨[], rfl, .inl ⟨e, rfl, rfl, rfl⟩⟩
    | ok a => exact (hf a).mono fun _ _ hq => .inr ⟨a, rfl, hq⟩
  refine (Makes.bind hx hcont).mono ?_
  rintro made r ⟨m, a, n, rfl, hp, ⟨e, rfl, rfl, rfl⟩ | ⟨a, rfl, hq⟩⟩
  · exact .inl ⟨e, rfl, by rwa [List.append_nil]⟩
  · exact .inr ⟨m, a, n, rfl, hp, hq⟩

theorem Makes.lift {rule : List Entry → α → Prop} (h : Makes work rule) :
    Makes (ExceptT.lift work : Attempt α).run fun made r => ∃ a, r = .ok a ∧ rule made a := by
  refine (Makes.bind h fun a => makes_pure (Except.ok a)).mono ?_
  rintro made r ⟨m, a, n, rfl, hrule, rfl, rfl⟩
  exact ⟨a, rfl, by rwa [List.append_nil]⟩

theorem makes_call (kind : CallKind) (c : Call) :
    Makes (call kind c).run fun made r =>
      (∃ reply, r = .ok reply ∧ made = [⟨c, true⟩]) ∨ ∃ f, r = .error f ∧ made = [⟨c, false⟩] := by
  intro s
  rw [course_call]
  refine ⟨[⟨c, (s.script.next kind).succeeded⟩], rfl, ?_⟩
  cases s.script.next kind with
  | failed f => exact .inr ⟨f, rfl, rfl⟩
  | done reply => exact .inl ⟨reply, rfl, rfl⟩

/-! ## Sorts of calls -/

private theorem only_pure (a : α) : Only sort (pure a) :=
  (makes_pure a).mono fun _ _ h => by simp [h.1]

theorem Only.bind {f : α → Run β} (hwork : Only sort work) (hf : ∀ a, Only sort (f a)) :
    Only sort (work >>= f) := by
  refine (Makes.bind hwork hf).mono ?_
  rintro made b ⟨m, a, n, rfl, hm, hn⟩
  exact List.forall_mem_append.mpr ⟨hm, hn⟩

theorem Only.andThen {x : Attempt α} {f : α → Attempt β} (hx : Only sort x.run)
    (hf : ∀ a, Only sort (f a).run) : Only sort (x >>= f).run := by
  refine (Makes.andThen hx hf).mono ?_
  rintro made r (⟨e, rfl, hp⟩ | ⟨m, a, n, rfl, hm, hn⟩)
  · exact hp
  · exact List.forall_mem_append.mpr ⟨hm, hn⟩

theorem only_ok (a : α) : Only sort (pure a : Attempt α).run := only_pure _

theorem only_throw (f : Failure) : Only sort (throw f : Attempt α).run := only_pure _

theorem Only.lift (h : Only sort work) : Only sort (ExceptT.lift work : Attempt α).run :=
  Only.bind h fun a => only_pure (Except.ok a)

theorem only_modify {f : Session → Session} (hf : ∀ s, (f s).journal = s.journal) :
    Only sort (modify f : Run PUnit) :=
  fun s => ⟨[], hf s, by simp⟩

theorem only_get : Only sort (get : Run Session) := fun _ => ⟨[], rfl, by simp⟩

theorem only_note {c : Call} (hc : sort c) : Only sort (note c) :=
  fun _ => ⟨[⟨c, true⟩], rfl, by simpa using hc⟩

theorem only_log (level : Log.Level) (logger message : String) (fields : Fields) :
    Only sort (log level logger message fields) :=
  only_modify fun _ => rfl

private theorem only_tell (e : Telemetry.SpanEvent) : Only sort (tell e) := only_modify fun _ => rfl

theorem only_call {kind : CallKind} {c : Call} (hc : sort c) : Only sort (call kind c).run := by
  refine (makes_call kind c).mono ?_
  rintro made r (⟨_, _, rfl⟩ | ⟨_, _, rfl⟩) <;> simpa using hc

private theorem only_forM {γ : Type} {f : γ → Run Unit} (hf : ∀ x, Only sort (f x)) (xs : List γ) :
    Only sort (xs.forM f) := by
  induction xs with
  | nil => exact only_pure _
  | cons x xs ih => exact Only.bind (hf x) fun _ => ih

theorem only_checkOut (hsort : ∀ c, sort (.checkOut c)) : Only sort checkOut.run := by
  refine Only.andThen (only_get.lift) fun s => ?_
  refine Only.andThen (only_call (hsort _)) fun _ => ?_
  exact Only.andThen (Only.lift (only_modify fun _ => rfl)) fun _ => only_ok _

/-! ## Work put together -/

theorem makes_inSpan {x : Attempt α} {rule : List Entry → Except Failure α → Prop} (span : Span)
    (hx : Makes x.run rule) :
    Makes (inSpan span x).run fun made r => ∃ q, rule made q ∧ r = Span.outcome q := by
  have hsilent : ∀ es : List Telemetry.SpanEvent, Only (fun _ => False) (es.forM tell) :=
    only_forM only_tell
  have hnone : ∀ {made : List Entry}, (∀ e ∈ made, False) → made = [] := fun h =>
    List.eq_nil_iff_forall_not_mem.mpr h
  refine (Makes.bind (hsilent span.opening) fun _ => Makes.bind hx fun r =>
    Makes.bind (hsilent (span.closing r)) fun _ => makes_pure (Span.outcome r)).mono ?_
  rintro made r ⟨m, _, _, rfl, hm, n, q, _, rfl, hn, k, _, _, rfl, hk, rfl, rfl⟩
  rw [hnone hm, hnone hk]
  exact ⟨q, by simpa using hn, rfl⟩

theorem outcome_of_hasText {r : Except Failure α} (h : ∀ f, r = .error f → HasText f) :
    Span.outcome r = r := by
  cases r with
  | ok a => rfl
  | error f =>
    obtain ⟨s, hs⟩ := h f rfl
    rw [Span.outcome, hs]

theorem outcome_eq_ok {r : Except Failure α} {a : α} : Span.outcome r = .ok a ↔ r = .ok a := by
  cases r with
  | ok b => rfl
  | error f =>
    unfold Span.outcome
    simp only
    split <;> simp

theorem isOk_outcome (r : Except Failure α) : (Span.outcome r).isOk = r.isOk := by
  cases r with
  | ok a => rfl
  | error f =>
    unfold Span.outcome
    simp only
    split <;> rfl

theorem outcome_eq_unwritable {r : Except Failure α} :
    Span.outcome r = .error .unwritable ↔ r = .error .unwritable := by
  cases r with
  | ok a => exact iff_of_false nofun nofun
  | error f =>
    unfold Span.outcome
    simp only
    split
    · rfl
    · rename_i g hg
      refine iff_of_false (fun h => within_ne_unwritable g f (Except.error.inj h)) ?_
      rintro ⟨⟩
      cases hg

theorem course_release (c : Nat) (pending : Option Failure) (s : Session) :
    course (release c pending).run s =
      (match s.script.next .release with
        | .failed f => .error (f.within pending)
        | .done _ => .ok (), s.afterCall .release (.release c)) := by
  have hrun : course (release c pending).run s =
      match course (call .release (.release c)).run s with
      | (.ok _, s) => (.ok (), s)
      | (.error f, s) => (.error (f.within pending), s) := rfl
  rw [hrun, course_call]
  cases s.script.next .release with
  | failed f => rfl
  | done reply => rfl

private theorem makes_release (c : Nat) (underWay : Option Failure) :
    Makes (release c underWay).run fun made r =>
      (r = .ok () ∧ made = [⟨.release c, true⟩]) ∨
        ∃ f, r = .error f ∧ made = [⟨.release c, false⟩] := by
  intro s
  rw [course_release]
  refine ⟨[⟨.release c, (s.script.next .release).succeeded⟩], rfl, ?_⟩
  cases s.script.next .release with
  | failed f => exact .inr ⟨_, rfl, rfl⟩
  | done reply => exact .inl ⟨rfl, rfl⟩

def underWay : Except Failure α → Option Failure
  | .ok _ => none
  | .error f => some f

theorem course_thenReleasing (c : Nat) (x : Attempt α) (s : Session) :
    course (thenReleasing c x).run s =
      match course (release c (underWay (course x.run s).1)).run (course x.run s).2 with
      | (.ok _, s') => ((course x.run s).1, s')
      | (.error f, s') => (.error f, s') := by
  have hrun : course (thenReleasing c x).run s =
      match course x.run s with
      | (.ok a, s) =>
        match course (release c none).run s with
        | (.ok _, s) => (.ok a, s)
        | (.error f, s) => (.error f, s)
      | (.error f, s) =>
        match course (release c (some f)).run s with
        | (.ok _, s) => (.error f, s)
        | (.error g, s) => (.error g, s) := rfl
  rw [hrun]
  obtain ⟨q, s'⟩ := course x.run s
  cases q with
  | ok a => rfl
  | error f => rfl

/-- Work that releases a connection at its end fails where the release does, and gives what it gave
before otherwise. -/
theorem makes_thenReleasing {x : Attempt α} {p : List Entry → Except Failure α → Prop} (c : Nat)
    (hx : Makes x.run p) :
    Makes (thenReleasing c x).run fun made r =>
      (∃ m, made = m ++ [⟨.release c, true⟩] ∧ p m r) ∨
        ∃ m q f, made = m ++ [⟨.release c, false⟩] ∧ p m q ∧ r = .error f := by
  intro s
  obtain ⟨m, hm, hp⟩ := hx s
  obtain ⟨n, hn, hrelease⟩ := makes_release c (underWay (course x.run s).1) (course x.run s).2
  rw [course_thenReleasing]
  generalize course (release c _).run _ = ending at hn hrelease ⊢
  obtain ⟨t, s'⟩ := ending
  rcases hrelease with ⟨rfl, rfl⟩ | ⟨f, rfl, rfl⟩
  · refine ⟨m ++ [⟨.release c, true⟩], ?_, .inl ⟨m, rfl, hp⟩⟩
    rw [hn, hm]
    simp
  · refine ⟨m ++ [⟨.release c, false⟩], ?_, .inr ⟨m, _, f, rfl, hp, rfl⟩⟩
    rw [hn, hm]
    simp

/-- How a transaction goes whose work obeys a rule: it does not start, is rolled back after its work
failed, is committed, or fails to be. -/
inductive Transacted (c : Nat) (rule : List Entry → Except Failure α → Prop) :
    List Entry → Except Failure α → Prop
  | unstarted (f : Failure) : Transacted c rule [⟨.start c, false⟩] (.error f)
  | rolledBack {m : List Entry} {f : Failure} : rule m (.error f) →
      Transacted c rule (⟨.start c, true⟩ :: m ++ [⟨.rollBack c, true⟩]) (.error f)
  | committed {m : List Entry} {a : α} : rule m (.ok a) →
      Transacted c rule (⟨.start c, true⟩ :: m ++ [⟨.commit c, true⟩]) (.ok a)
  | uncommitted {m : List Entry} {a : α} (f : Failure) : rule m (.ok a) →
      Transacted c rule (⟨.start c, true⟩ :: m ++ [⟨.commit c, false⟩]) (.error f)

theorem makes_inTransaction {x : Attempt α} {rule : List Entry → Except Failure α → Prop} (c : Nat)
    (hx : Makes x.run rule) : Makes (inTransaction c x).run (Transacted c rule) := by
  have hend : ∀ q : Except Failure α, Makes (match q with
      | .ok a => (do
        let _ ← call .commit (.commit c)
        return a : Attempt α)
      | .error f => (do
        note (.rollBack c)
        throw f : Attempt α)).run fun made r =>
      (∃ f, q = .error f ∧ made = [⟨.rollBack c, true⟩] ∧ r = .error f) ∨
        (∃ a, q = .ok a ∧ made = [⟨.commit c, true⟩] ∧ r = .ok a) ∨
        ∃ a f, q = .ok a ∧ made = [⟨.commit c, false⟩] ∧ r = .error f := by
    intro q
    cases q with
    | error f => exact fun s => ⟨[⟨.rollBack c, true⟩], rfl, .inl ⟨f, rfl, rfl, rfl⟩⟩
    | ok a =>
      refine (Makes.andThen (makes_call .commit (.commit c)) fun _ =>
        makes_pure (Except.ok a)).mono ?_
      rintro made r (⟨f, rfl, ⟨_, h, _⟩ | ⟨_, _, rfl⟩⟩ | ⟨m, _, n, rfl, hcall, rfl, rfl⟩)
      · cases h
      · exact .inr (.inr ⟨a, f, rfl, rfl, rfl⟩)
      · rcases hcall with ⟨_, _, rfl⟩ | ⟨_, h, _⟩
        · exact .inr (.inl ⟨a, rfl, rfl, rfl⟩)
        · cases h
  refine (Makes.andThen (makes_call .start (.start c)) fun _ =>
    Makes.andThen hx.lift hend).mono ?_
  rintro made r (⟨f, rfl, ⟨_, h, _⟩ | ⟨_, _, rfl⟩⟩ | ⟨m, _, n, rfl, hcall, hrest⟩)
  · cases h
  · exact .unstarted f
  · rcases hcall with ⟨_, _, rfl⟩ | ⟨_, h, _⟩
    · rcases hrest with ⟨_, rfl, _, h, _⟩ | ⟨m, q, k, rfl, ⟨q', hq, hp⟩, hend⟩
      · cases h
      · cases hq
        rcases hend with ⟨f, rfl, rfl, rfl⟩ | ⟨a, rfl, rfl, rfl⟩ | ⟨a, f, rfl, rfl, rfl⟩
        · exact .rolledBack hp
        · exact .committed hp
        · exact .uncommitted f hp
    · cases h

end QueryGateway.Proofs.Database.Calls
