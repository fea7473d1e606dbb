import QueryGateway.Proofs.Engine.WarmUps

/-!
Tests of the connection. A test is attempted until a connection could be taken, checked and given
back, three times at most and whatever went wrong, as long as that can be told. It tells whether it
was so, and asking for it by a plan tells the same.
-/

set_option autoImplicit false
set_option relaxedAutoImplicit false

namespace QueryGateway.Proofs.Engine.Tests

open QueryGateway.Database
open QueryGateway.Engine
open QueryGateway.Proofs.Database.Calls (course outcome_of_hasText resultOf)
open QueryGateway.Proofs.Database.Events
open QueryGateway.Proofs.Database.Holding
open QueryGateway.Proofs.Engine.Attempts (forall_of_connects)
open QueryGateway.Proofs.Engine.Commits (losing plainEngine unsent)
open QueryGateway.Proofs.Engine.Connections
open QueryGateway.Proofs.Engine.Telling
open QueryGateway.Proofs.Engine.WarmUps
open QueryGateway.Proofs.Failure.Texts
open QueryGateway.Proofs.Failure.Translation (Tellable notSent)
open QueryGateway.Proofs.Retry.Tries
open QueryGateway.Proofs.Success (map_error)

variable {e : Engine}

/-- Events by which the database is reached: a connection is taken, checked and given back, and
nothing of that fails. -/
def Reaches (events : List Event) : Prop :=
  ∃ m c r₁ r₂ r₃, Pooled m ∧ events =
    m ++ [⟨.checkOut c, .done r₁⟩, ⟨check c, .done r₂⟩, ⟨.release c, .done r₃⟩]

/-- How one attempt goes: there is no connection, or it is checked and given back. -/
inductive Probes (e : Engine) : List Event → Except Failure Unit → Prop
  | untaken {m : List Event} {f : Failure} : Takes e m (.error f) → Probes e m (.error f)
  | taken {m : List Event} {c : Nat} (checked released : Outcome) : Takes e m (.ok c) →
      Probes e (m ++ [⟨check c, checked⟩, ⟨.release c, released⟩])
        (afterRelease released ((resultOf checked).map fun _ => ()))

/-- What there is to one attempt. It goes the way it would go as the only one, makes no calls but
those of a check, never waits, and succeeds just where it reaches the database. -/
structure Tested (e : Engine) (p : Prospect) (events : List Event) (y : Except Failure Unit) :
    Prop where
  course : Gives (e.withConnection probe).run p events y
  probes : Probes e events y
  awake : ∀ ev ∈ events, ∀ delay, ev.call ≠ .sleep delay
  truth : y = .ok () ↔ Reaches events

/-! ## One attempt -/

theorem forall_of_probes {sort : Call → Prop}
    (hpool : ∀ url options, sort (.createPool url options))
    (hcheckOut : ∀ c, sort (.checkOut c)) (hcheck : ∀ c, sort (check c))
    (hrelease : ∀ c, sort (.release c)) {events : List Event} {y : Except Failure Unit}
    (h : Probes e events y) : ∀ ev ∈ events, sort ev.call := by
  have htakes : ∀ {m r}, Takes e m r → ∀ ev ∈ m, sort ev.call := fun hm =>
    forall_of_connects hpool hcheckOut (connects_of_takes hm)
  cases h with
  | untaken hm => exact htakes hm
  | @taken m c checked released hm =>
    refine List.forall_mem_append.mpr ⟨htakes hm, ?_⟩
    simpa using ⟨hcheck c, hrelease c⟩

private theorem takings_of_reaches {events : List Event} (h : Reaches events) :
    ∃ c, takings events = [c] := by
  obtain ⟨m, c, r₁, r₂, r₃, hm, rfl⟩ := h
  have hnone : m.filterMap taken = [] := (tally_of_pooled hm).taken
  refine ⟨c, ?_⟩
  rw [takings, List.filterMap_append, hnone]
  rfl

private theorem smooth_of_reaches {events : List Event} (h : Reaches events) : Smooth events := by
  obtain ⟨m, c, r₁, r₂, r₃, hm, rfl⟩ := h
  refine List.forall_mem_append.mpr ⟨smooth_of_pooled hm, ?_⟩
  simp [Outcome.succeeded]

private theorem not_reaches_of_untaken {m : List Event} {f : Failure} (h : Takes e m (.error f)) :
    ¬ Reaches m := by
  intro hreaches
  obtain ⟨c, hc⟩ := takings_of_reaches hreaches
  obtain ⟨_, _, htally⟩ := tally_of_untaken h
  rw [htally.taken] at hc
  cases hc

private theorem truth_of_probes {events : List Event} {y : Except Failure Unit}
    (h : Probes e events y) :
    y = .ok () ↔ Reaches events := by
  cases h with
  | untaken hm => exact iff_of_false nofun (not_reaches_of_untaken hm)
  | @taken m c checked released hm =>
    constructor
    · intro hy
      cases released with
      | failed f => cases hy
      | done r₃ =>
        cases checked with
        | failed f => cases hy
        | done r₂ =>
          cases hm with
          | @taken k c r₁ hk => exact ⟨k, c, r₁, r₂, r₃, hk, by simp⟩
    · intro hreaches
      obtain ⟨_, hrest⟩ := List.forall_mem_append.mp (smooth_of_reaches hreaches)
      obtain ⟨hchecked, hrest⟩ := List.forall_mem_cons.mp hrest
      have hreleased := List.forall_mem_singleton.mp hrest
      cases checked with
      | failed f => cases hchecked
      | done r₂ =>
        cases released with
        | failed f => cases hreleased
        | done r₃ => rfl

theorem exists_tested (e : Engine) (p : Prospect) : ∃ events y,
    Gives (e.withConnection probe).run p events y ∧ Tested e p events y := by
  obtain ⟨m, r, hconnect, htakes, _⟩ := gives_connect_once (e := e) p
  have hall : ∃ events y, Gives (e.withConnection probe).run p events y ∧ Probes e events y := by
    cases r with
    | error f => exact ⟨m, .error f, hconnect.stop, .untaken htakes⟩
    | ok c =>
      obtain ⟨_, r, hprobe, o, rfl, rfl⟩ := unfolds_probe c (p.through m)
      exact ⟨_, _, Gives.andThen hconnect (gives_thenReleasing c hprobe), .taken o _ htakes⟩
  obtain ⟨events, y, hgives, hprobes⟩ := hall
  have hawake : ∀ ev ∈ events, ∀ delay, ev.call ≠ .sleep delay :=
    @forall_of_probes e (fun call => ∀ delay, call ≠ .sleep delay) (fun _ _ _ h => nomatch h)
      (fun _ _ h => nomatch h) (fun _ _ h => nomatch h) (fun _ _ h => nomatch h) events y hprobes
  exact ⟨events, y, hgives, hgives, hprobes, hawake, truth_of_probes hprobes⟩

private theorem balanced_of_probes {events : List Event} {y : Except Failure Unit}
    (h : Probes e events y) : Balanced 1 events := by
  cases h with
  | untaken hm => exact .neutral (neutral_of_unconnected (connects_of_takes hm))
  | @taken m c checked released hm =>
    have htaken : Handles 1 [] m [c] := handles_of_connected Nat.one_pos (connects_of_takes hm)
    have hreturned : Handles 1 [c] [⟨.release c, released⟩] [] := by
      refine .returning c released (List.mem_singleton_self c) ?_
      rw [List.erase_cons_head]
      exact .nil
    exact htaken.append (.passing ⟨rfl, rfl⟩ hreturned)

/-! ## Answers -/

abbrev isRepeated (e : Engine) : Except Failure Unit → Bool := goesOn (telling e)

private theorem isRepeated_iff {y : Except Failure Unit} :
    isRepeated e y = true ↔ ∃ f, y = .error f ∧ Tellable f := by
  cases y with
  | ok _ => simp [goesOn]
  | error f =>
    have hone : (∃ g, (.error f : Except Failure Unit) = .error g ∧ Tellable g) ↔ Tellable f := by
      simp
    rw [hone, ← toldMessage_ok_iff (e := e), isRepeated, goesOn, telling]
    cases e.toldMessage f <;> simp [Except.map, Except.isOk, Except.toBool]

private theorem reported_ok (remaining : Nat) (u : Unit) :
    reported e remaining (.ok u) = .ok true := by
  cases remaining <;> rfl

private theorem reported_last (f : Failure) :
    reported e 0 (.error f) = (e.toldMessage f).map fun _ => false := by
  change (telling e f).map _ = _
  rw [telling]
  cases e.toldMessage f <;> rfl

private theorem reported_ne_true (remaining : Nat) (f : Failure) :
    reported e remaining (.error f) ≠ .ok true := by
  intro h
  unfold reported at h
  split at h
  · rename_i hlast
    cases remaining with
    | zero => cases hlast
    | succ _ =>
      rw [concluded] at hlast
      cases htelling : telling e f <;> rw [htelling] at hlast <;> cases hlast
  · rename_i g _
    cases htelling : telling e g <;> rw [htelling] at h <;> cases h

private theorem hasText_of_reported {remaining : Nat} {y : Except Failure Unit} {f : Failure}
    (h : reported e remaining y = .error f) : HasText f := by
  unfold reported at h
  split at h
  · cases h
  · rename_i g _
    rw [telling] at h
    cases htold : e.toldMessage g with
    | ok message =>
      rw [htold] at h
      cases h
    | error o =>
      rw [htold] at h
      cases h
      exact (toldMessage_error htold).1

/-! ## All attempts -/

/-- What is promised of a test: attempts until one reaches the database, three at most, and an
answer that tells whether one did. -/
structure Promised (tries : List (Try (Except Failure Unit))) (r : Except Failure Bool) : Prop where
  attempts : IsLeast {k | 1 ≤ k ∧ ∃ t, tries[k - 1]? = some t ∧ (Reaches t.events ∨ k = 3)}
    tries.length
  truth : ∃ reached, r = .ok reached ∧ (reached = true ↔ ∃ t ∈ tries, Reaches t.events)

section Rows

variable {again : Except Failure Unit → Bool} {unit : Number.Binary64} {p : Prospect}
  {tries front : List (Try (Except Failure Unit))} {t : Try (Except Failure Unit)}

private theorem ok_iff_reaches (h : Row (Tested e) again unit 1 2 p tries) :
    ∀ t ∈ tries, t.outcome = .ok () ↔ Reaches t.events := by
  intro t ht
  obtain ⟨q, htested⟩ := h.rule_of_mem t ht
  exact htested.truth

private theorem length_le_of_row (h : Row (Tested e) again unit 1 2 p tries) :
    tries.length ≤ 3 := by
  by_contra hmore
  have hthird : 3 ∈ {k | Ends again 3 tries k} :=
    ⟨by omega, tries[2], List.getElem?_eq_getElem _, .inr rfl⟩
  have hleast := h.isLeast.2 hthird
  omega

private theorem reaches_iff_last (h : Row (Tested e) (isRepeated e) unit 1 2 p (front ++ [t])) :
    (∃ u ∈ front ++ [t], Reaches u.events) ↔ t.outcome = .ok () := by
  constructor
  · rintro ⟨u, hu, hreaches⟩
    have hok := (ok_iff_reaches h u hu).mpr hreaches
    rcases List.mem_append.mp hu with hfront | hlast
    · obtain ⟨f, hf, _⟩ := isRepeated_iff.mp (h.again_of_front u hfront)
      rw [hok] at hf
      cases hf
    · rwa [← List.mem_singleton.mp hlast]
  · intro hok
    exact ⟨t, by simp, (ok_iff_reaches h t (by simp)).mp hok⟩

private theorem isLeast_of_row (h : Row (Tested e) (isRepeated e) unit 1 2 p tries)
    (htold : ∀ t ∈ tries, ∀ f, t.outcome = .error f → Tellable f) :
    IsLeast {k | 1 ≤ k ∧ ∃ t, tries[k - 1]? = some t ∧ (Reaches t.events ∨ k = 3)}
      tries.length := by
  have hover : ∀ t ∈ tries, isRepeated e t.outcome = false ↔ Reaches t.events := by
    intro t ht
    rw [← ok_iff_reaches h t ht, ← Bool.not_eq_true, isRepeated_iff]
    cases hy : t.outcome with
    | ok _ => simp
    | error f => simpa using htold t ht f hy
  have hsame : {k | 1 ≤ k ∧ ∃ t, tries[k - 1]? = some t ∧ (Reaches t.events ∨ k = 3)} =
      {k | Ends (isRepeated e) 3 tries k} := by
    ext k
    refine and_congr_right fun _ => exists_congr fun t => and_congr_right fun ht => ?_
    rw [hover t (List.mem_of_getElem? ht)]
  rw [hsame]
  exact h.isLeast

theorem promised_iff (h : Row (Tested e) (isRepeated e) unit 1 2 p (front ++ [t])) :
    Promised (front ++ [t]) (reported e (2 - front.length) t.outcome) ↔
      ∀ u ∈ front ++ [t], ∀ f, u.outcome = .error f → Tellable f := by
  have hlength := length_le_of_row h
  rw [List.length_append, List.length_singleton] at hlength
  have hreaches := reaches_iff_last h
  constructor
  · intro hpromised
    refine List.forall_mem_append.mpr ⟨fun u hu f hf => ?_, List.forall_mem_singleton.mpr ?_⟩
    · obtain ⟨g, hg, htellable⟩ := isRepeated_iff.mp (h.again_of_front u hu)
      rw [hf] at hg
      cases hg
      exact htellable
    · -- An attempt that failed is the third, and there its failure is told about.
      intro f hf
      obtain ⟨-, u, hu, hends⟩ := hpromised.attempts.1
      have hfailed : ¬ ∃ u ∈ front ++ [t], Reaches u.events := by
        rw [hreaches, hf]
        nofun
      have hthird := hends.resolve_left fun hu' => hfailed ⟨u, List.mem_of_getElem? hu, hu'⟩
      rw [List.length_append, List.length_singleton] at hthird
      obtain ⟨reached, htruth, -⟩ := hpromised.truth
      have hnone : 2 - front.length = 0 := by omega
      rw [hf, hnone, reported_last] at htruth
      refine (toldMessage_ok_iff (e := e)).mp ?_
      cases hmessage : e.toldMessage f with
      | ok message => exact ⟨message, rfl⟩
      | error o =>
        rw [hmessage] at htruth
        cases htruth
  · intro htold
    refine ⟨isLeast_of_row h htold, ?_⟩
    rw [hreaches]
    cases hy : t.outcome with
    | ok u => exact ⟨true, reported_ok _ u, by simp⟩
    | error f =>
      have htellable := htold t (by simp) f hy
      have hrepeated : isRepeated e t.outcome = true := isRepeated_iff.mpr ⟨f, hy, htellable⟩
      obtain ⟨-, u, hu, hends⟩ := h.isLeast.1
      have hlast : u = t := by simpa using hu.symm
      rw [hlast, hrepeated] at hends
      have hthird := hends.resolve_left nofun
      rw [List.length_append, List.length_singleton] at hthird
      have hnone : 2 - front.length = 0 := by omega
      obtain ⟨message, hmessage⟩ := (toldMessage_ok_iff (e := e)).mpr htellable
      refine ⟨false, ?_, by simp⟩
      rw [hnone, reported_last, hmessage]
      rfl

private theorem balanced_of_row (h : Row (Tested e) again unit 1 2 p tries) :
    Balanced 1 (inRow unit 1 tries) := by
  refine closed_inRow (closed_balanced 1) balanced_pause ?_ 1
  intro t ht
  obtain ⟨q, htested⟩ := h.rule_of_mem t ht
  exact balanced_of_probes htested.probes

end Rows

private theorem gives_ping {plan : Plan} (hping : isPing plan = true) {request : Request}
    {p : Prospect} {events : List Event} {r : Except Failure Bool}
    (htext : ∀ f, r = .error f → HasText f) (h : Gives (e.testConnection request).run p events r) :
    Gives (e.run request plan).run p events
      (r.map fun reached => { kind := plan.kind, info := [("connected", .bool reached)] }) := by
  have hwork : Gives (e.ping request plan).run p events
      (r.map fun reached => { kind := plan.kind, info := [("connected", .bool reached)] }) := by
    cases r with
    | error f => exact h.stop
    | ok reached =>
      rw [← List.append_nil events]
      exact h.andThen (gives_pure (Except.ok _) _)
  have hkept := outcome_of_hasText (r := r.map fun reached =>
    ({ kind := plan.kind, info := [("connected", .bool reached)] } : Result)) fun f hf =>
      htext f (map_error.mp hf)
  simp only [Engine.run, hping, if_true]
  rw [← hkept]
  exact hwork.inSpan _

/-- A test of the connection makes attempts in a row, three at most however often plans may be
attempted, with a wait between two of them and nowhere else, and gives back each connection that it
took. If it tells that the database was reached, some attempt did reach it, and the other way round.
It makes attempts until one does, and tells if none did, just where every failure of an attempt can
be told. A plan that asks for it makes the same calls, and answers what the test gives. -/
theorem test_tells_truth (e : Engine) (request : Request) (plan : Plan)
    (hping : isPing plan = true) (s : Session) :
    ∃ tries : List (Try (Except Failure Unit)),
      Row (Tested e) (isRepeated e) e.settings.retryDelay 1 2 (prospect s) tries ∧
      tries.length ≤ 3 ∧
      Tidy 1 (inRow e.settings.retryDelay 1 tries) ∧
      (course (e.testConnection request).run s).2.journal =
        (entries (inRow e.settings.retryDelay 1 tries)).reverse ++ s.journal ∧
      ((course (e.testConnection request).run s).1 = .ok true ↔ ∃ t ∈ tries, Reaches t.events) ∧
      (Promised tries (course (e.testConnection request).run s).1 ↔
        ∀ t ∈ tries, ∀ f, t.outcome = .error f → Tellable f) ∧
      (course (e.run request plan).run s).2.journal =
        (entries (inRow e.settings.retryDelay 1 tries)).reverse ++ s.journal ∧
      (course (e.run request plan).run s).1 =
        (course (e.testConnection request).run s).1.map fun reached =>
          { kind := plan.kind, info := [("connected", .bool reached)] } := by
  obtain ⟨front, t, hrow, htest⟩ :=
    gives_testConnection (exists_tested e) request (prospect s)
  obtain ⟨hresult, _, hjournal⟩ := htest.course s rfl
  obtain ⟨hanswer, _, hrun⟩ :=
    (gives_ping hping (fun _ => hasText_of_reported) htest).course s rfl
  refine ⟨front ++ [t], hrow, length_le_of_row hrow,
    tidy_of_handles htest.allowed (balanced_of_row hrow), hjournal, ?_, ?_, hrun, ?_⟩
  · rw [hresult, reaches_iff_last hrow]
    cases t.outcome with
    | ok u => exact iff_of_true (reported_ok _ u) rfl
    | error f => exact iff_of_false (reported_ne_true _ f) nofun
  · rw [hresult]
    exact promised_iff hrow
  · rw [hanswer, hresult]

def asking : Plan := { kind := .utility, inquiry := some (.utility .ping none) }

/-- The first connection is lost while it is given back, and the second attempt succeeds. -/
theorem test_tells_truth_losing :
    Plan.ofOperation (.utility .ping none) = .ok asking ∧ isPing asking = true ∧
      (course (plainEngine.testConnection ⟨"r", none, []⟩).run losing).2.journal.length = 7 ∧
      ∃ tries : List (Try (Except Failure Unit)),
        Row (Tested plainEngine) (isRepeated plainEngine) plainEngine.settings.retryDelay 1 2
          (prospect losing) tries ∧
        tries.length ≤ 3 ∧
        Tidy 1 (inRow plainEngine.settings.retryDelay 1 tries) ∧
        (course (plainEngine.testConnection ⟨"r", none, []⟩).run losing).2.journal =
          (entries (inRow plainEngine.settings.retryDelay 1 tries)).reverse ++ losing.journal ∧
        ((course (plainEngine.testConnection ⟨"r", none, []⟩).run losing).1 = .ok true ↔
          ∃ t ∈ tries, Reaches t.events) ∧
        (Promised tries (course (plainEngine.testConnection ⟨"r", none, []⟩).run losing).1 ↔
          ∀ t ∈ tries, ∀ f, t.outcome = .error f → Tellable f) ∧
        (course (plainEngine.run ⟨"r", none, []⟩ asking).run losing).2.journal =
          (entries (inRow plainEngine.settings.retryDelay 1 tries)).reverse ++ losing.journal ∧
        (course (plainEngine.run ⟨"r", none, []⟩ asking).run losing).1 =
          (course (plainEngine.testConnection ⟨"r", none, []⟩).run losing).1.map fun reached =>
            { kind := asking.kind, info := [("connected", .bool reached)] } :=
  ⟨rfl, rfl, by decide +kernel, test_tells_truth plainEngine ⟨"r", none, []⟩ asking rfl losing⟩

/-- A session in which the first two connections are lost and the third statement is not sent. -/
def thirdUnsent : Session :=
  { script := fun kind =>
      let lost : Outcome :=
        .failed (.mk (.general "DriverError") [.int 2013, .text "Lost connection"] none none none)
      if kind = .execute then [lost, lost, .failed notSent] else []
    hasPool := true }

/-- A test gives up after a statement that was not sent, although the next one would succeed, and it
fails where the third statement is not sent. -/
theorem not_promised_unsent :
    (course (plainEngine.testConnection ⟨"r", none, []⟩).run unsent).1.toOption = some false ∧
      (course (plainEngine.testConnection ⟨"r", none, []⟩).run unsent).2.journal.map
        Entry.succeeded = [true, false, true] ∧
      (unsent.script .execute).length = 1 ∧
      (course (plainEngine.testConnection ⟨"r", none, []⟩).run thirdUnsent).1.isOk = false :=
  ⟨by decide +kernel, by decide +kernel, rfl, by decide +kernel⟩

end QueryGateway.Proofs.Engine.Tests
