import QueryGateway.Proofs.Engine.Connections
import QueryGateway.Proofs.Engine.Policy

/-!
Connections that are opened ahead of their use. They are taken one after another, each is checked
before the next is taken, and nothing more is taken behind the first failure. All of them are held
until then, and given back in reverse order. How many are asked for is another question: a zero is
taken for no wish at all.
-/

set_option autoImplicit false
set_option relaxedAutoImplicit false

namespace QueryGateway.Proofs.Engine.WarmUps

open QueryGateway.Database
open QueryGateway.Engine
open QueryGateway.Settings (DatabaseSettings Source)
open QueryGateway.Proofs.Database.Calls (course resultOf)
open QueryGateway.Proofs.Database.Events
open QueryGateway.Proofs.Database.Holding
open QueryGateway.Proofs.Engine.Attempts
open QueryGateway.Proofs.Engine.Commits (plainEngine)
open QueryGateway.Proofs.Engine.Connections (gives_stopEarly stopped)
open QueryGateway.Proofs.Engine.Policy (countP_of_pooling isCheckOut)
open QueryGateway.Proofs.Engine.Telling
open QueryGateway.Proofs.Failure.Translation (Tellable tellable_of_writable)
open QueryGateway.Proofs.Settings.Bounds

abbrev check (c : Nat) : Call := .execute c "SELECT 1" none

/-- The connection whose check an event tells to have succeeded. -/
def passed (ev : Event) : Option Nat :=
  match ev.call, ev.outcome with
  | .execute c "SELECT 1" none, .done _ => some c
  | _, _ => none

/-- The connections whose check succeeded, in order. -/
abbrev passes (events : List Event) : List Nat := events.filterMap passed

/-- How many connections may be opened: what was asked for, or else five, and never more than the
pool may have. -/
def most (count : Option Int) (limit : Int) : Int :=
  match count with
  | none => min 5 limit
  | some n => min (max n 0) limit

/-- A call behind a failure may only give back a connection. -/
def MayFollow (ev later : Event) : Prop :=
  ev.outcome.succeeded = true ∨ ∃ c, later.call = .release c

/-- Connections that are opened ahead of their use, all of them held until they are given back. -/
structure Opened (most : Int) (events : List Event) : Prop where
  atMost : (events.countP isCheckOut : Int) ≤ most
  stops : events.Pairwise MayFollow
  together : ∃ opening closing, events = opening ++ closing ∧ returns opening = [] ∧
    closing.map Event.call = (takings opening).reverse.map .release
  once : (takings events).Nodup
  checked : passes events <+: takings events

/-- What is promised of connections that are opened ahead of their use. -/
structure WarmsUp (most : Int) (events : List Event) (r : Except Failure Nat) : Prop extends
    Opened most events where
  result : r = .ok (passes events).length

/-- Events whose failures can all be told. One of making a pool is told as a fault in any case. -/
def Explained (events : List Event) : Prop :=
  ∀ ev ∈ events, ∀ f, ev.outcome = .failed f → (∀ url options, ev.call ≠ .createPool url options) →
    Tellable f

variable {e : Engine}

/-! ## One connection -/

/-- A call by which the pool was made, if there was none. -/
def Pooled (m : List Event) : Prop :=
  m = [] ∨ ∃ url options reply, m = [⟨.createPool url options, .done reply⟩]

/-- How a connection is taken, call by call. Nothing comes behind a failure. -/
inductive Takes (e : Engine) : List Event → Except Failure Nat → Prop
  | unmade (f : Failure) : poolOptions e.settings = .error f → Takes e [] (.error f)
  | denied (url : String) (options : PoolOptions) (f : Failure) :
      Takes e [⟨.createPool url options, .failed f⟩]
        (.error (Failure.causedBy (poolFault e.settings) f))
  | refused {m : List Event} (c : Nat) (f : Failure) : Pooled m →
      Takes e (m ++ [⟨.checkOut c, .failed f⟩]) (.error f)
  | taken {m : List Event} (c : Nat) (reply : Reply) : Pooled m →
      Takes e (m ++ [⟨.checkOut c, .done reply⟩]) (.ok c)

/-- A prospect from which no connection is even asked for: there is no pool, none can be made. -/
def Poolless (e : Engine) (p : Prospect) : Prop :=
  p.hasPool = false ∧
    ∀ options, poolOptions e.settings = .ok options → (p.script.next .createPool).succeeded = false

private theorem gives_ensurePool_once (p : Prospect) : ∃ m r, Gives e.ensurePool.run p m r ∧
    ((r = .ok () ∧ Pooled m ∧ ¬ Poolless e p) ∨
      ∃ f, r = .error f ∧ Takes e m (.error f) ∧ m.countP isCheckOut = 0 ∧ Poolless e p) := by
  cases hpool : p.hasPool with
  | true =>
    refine ⟨[], .ok (), gives_ensurePool_pooled hpool, .inl ⟨rfl, .inl rfl, ?_⟩⟩
    rintro ⟨hnone, _⟩
    rw [hpool] at hnone
    cases hnone
  | false =>
    cases hoptions : poolOptions e.settings with
    | error f =>
      refine ⟨[], .error f, ?_, .inr ⟨f, rfl, .unmade f hoptions, rfl, hpool, ?_⟩⟩
      · refine gives_ensurePool_poolless hpool ?_
        have hrun : e.makePool = throw f := by
          rw [makePool, hoptions]
          rfl
        rw [hrun]
        exact gives_pure _ p
      · rintro options h
        rw [hoptions] at h
        cases h
    | ok options =>
      refine ⟨_, _, gives_ensurePool_poolless hpool (gives_makePool hoptions p), ?_⟩
      cases hnext : p.script.next .createPool with
      | failed f =>
        refine .inr ⟨_, rfl, .denied _ _ _, rfl, hpool, fun _ _ => ?_⟩
        rw [hnext]
        rfl
      | done reply =>
        refine .inl ⟨rfl, .inr ⟨_, _, _, rfl⟩, ?_⟩
        rintro ⟨_, hfails⟩
        have hfailed := hfails options hoptions
        rw [hnext] at hfailed
        cases hfailed

private theorem pooling_of_pooled {m : List Event} (h : Pooled m) : Pooling m := by
  rcases h with rfl | ⟨url, options, reply, rfl⟩
  · exact List.forall_mem_nil _
  · exact List.forall_mem_singleton.mpr ⟨url, options, rfl⟩

theorem gives_connect_once (p : Prospect) : ∃ m r, Gives e.connect.run p m r ∧ Takes e m r ∧
    (m.countP isCheckOut = 0 ↔ Poolless e p) := by
  obtain ⟨m, r, hpool, ⟨rfl, hm, hsome⟩ | ⟨f, rfl, hm, hnone, hless⟩⟩ :=
    gives_ensurePool_once (e := e) p
  · refine ⟨_, _, Gives.andThen hpool (gives_checkOut (p.through m)), ?_, ?_⟩
    · cases (p.through m).script.next .checkOut with
      | failed f => exact .refused _ f hm
      | done reply => exact .taken _ reply hm
    · refine iff_of_false ?_ hsome
      rw [List.countP_append, countP_of_pooling (pooling_of_pooled hm)]
      exact Nat.one_ne_zero
  · exact ⟨m, .error f, hpool.stop, hm, iff_of_true hnone hless⟩

theorem unfolds_probe (c : Nat) : Unfolds (probe c).run fun events r =>
    ∃ o, events = [⟨check c, o⟩] ∧ r = (resultOf o).map fun _ => () := by
  refine (Unfolds.andThen (unfolds_call .execute (check c) rfl nofun fun _ _ => rfl) fun _ =>
    unfolds_pure (Except.ok ())).mono ?_
  rintro events r (⟨f, rfl, o, rfl, ho⟩ | ⟨m, reply, n, rfl, ⟨o, rfl, ho⟩, rfl, rfl⟩)
  · exact ⟨o, rfl, by rw [← ho]; rfl⟩
  · exact ⟨o, rfl, by rw [← ho]; rfl⟩

/-- What calls come to that give nothing back: how often a connection was asked for, which were
taken, and which of them passed their check. -/
structure Tally (events : List Event) (asked : Nat) (cs ks : List Nat) : Prop where
  asked : events.countP isCheckOut = asked
  taken : takings events = cs
  kept : returns events = []
  passed : passes events = ks

theorem Tally.append {m n : List Event} {a b : Nat} {cs ds ks js : List Nat} (hm : Tally m a cs ks)
    (hn : Tally n b ds js) : Tally (m ++ n) (a + b) (cs ++ ds) (ks ++ js) where
  asked := by rw [List.countP_append, hm.asked, hn.asked]
  taken := by rw [← hm.taken, ← hn.taken, takings, List.filterMap_append]
  kept := by rw [returns, List.filterMap_append, ← returns, ← returns, hm.kept, hn.kept]; rfl
  passed := by rw [← hm.passed, ← hn.passed, passes, List.filterMap_append]

theorem tally_of_pooled {m : List Event} (h : Pooled m) : Tally m 0 [] [] := by
  rcases h with rfl | ⟨url, options, reply, rfl⟩ <;> exact ⟨rfl, rfl, rfl, rfl⟩

private theorem tally_of_taken {m : List Event} {c : Nat} (h : Takes e m (.ok c)) :
    Tally m 1 [c] [] := by
  cases h with
  | taken c reply hm => exact (tally_of_pooled hm).append ⟨rfl, rfl, rfl, rfl⟩

theorem tally_of_untaken {m : List Event} {f : Failure} (h : Takes e m (.error f)) :
    ∃ a ≤ 1, Tally m a [] [] := by
  cases h with
  | unmade f _ => exact ⟨0, Nat.zero_le 1, rfl, rfl, rfl, rfl⟩
  | denied url options f => exact ⟨0, Nat.zero_le 1, rfl, rfl, rfl, rfl⟩
  | refused c f hm =>
    exact ⟨1, Nat.le_refl 1, (tally_of_pooled hm).append (b := 1) ⟨rfl, rfl, rfl, rfl⟩⟩

private theorem tally_check (c : Nat) (o : Outcome) :
    Tally [⟨check c, o⟩] 0 [] (if o.succeeded then [c] else []) := by
  cases o <;> exact ⟨rfl, rfl, rfl, rfl⟩

/-! ## Many connections -/

/-- How up to some number of connections are opened: the calls, the connections taken, how many of
them were checked, and the failure that ended it, if any did. -/
inductive Opens (e : Engine) : Nat → List Event → List Nat → Nat → Option Failure → Prop
  | whole : Opens e 0 [] [] 0 none
  | untaken {n : Nat} {m : List Event} {f : Failure} : Takes e m (.error f) →
      Opens e (n + 1) m [] 0 (some f)
  | unchecked {n c : Nat} {m : List Event} (f : Failure) : Takes e m (.ok c) →
      Opens e (n + 1) (m ++ [⟨check c, .failed f⟩]) [c] 0 (some f)
  | checked {n c k : Nat} {m rest : List Event} {cs : List Nat} {last : Option Failure}
      (reply : Reply) : Takes e m (.ok c) → Opens e n rest cs k last →
      Opens e (n + 1) (m ++ ⟨check c, .done reply⟩ :: rest) (c :: cs) (k + 1) last

/-- What broke off the work that some failure ended: what keeps it from being told, if anything. -/
def brokenBy (e : Engine) (last : Option Failure) : Option Failure :=
  last.bind fun f =>
    match e.toldMessage f with
    | .ok _ => none
    | .error g => some g

private theorem stopped_eq (w : Warmed) (hw : w.broken = none) (f : Failure) :
    stopped e w f = { w with broken := brokenBy e (some f) } := by
  simp only [stopped, brokenBy, Option.bind_some]
  cases e.toldMessage f with
  | ok _ => rw [← hw]
  | error g => rfl

theorem brokenBy_eq_none_iff {last : Option Failure} :
    brokenBy e last = none ↔ ∀ f ∈ last, Tellable f := by
  cases last with
  | none => simp [brokenBy]
  | some f =>
    have hone : (∀ g ∈ some f, Tellable g) ↔ Tellable f := by simp
    rw [hone, ← toldMessage_ok_iff (e := e), brokenBy, Option.bind_some]
    cases e.toldMessage f <;> simp

private theorem gives_openConnections (n : Nat) (w : Warmed) (hw : w.broken = none) (p : Prospect) :
    ∃ events cs k last,
      Gives (e.openConnections n w) p events
          ⟨cs.reverse ++ w.held, w.checked + k, brokenBy e last⟩ ∧
        Opens e n events cs k last ∧
        (n ≠ 0 → (events.countP isCheckOut = 0 ↔ Poolless e p)) := by
  induction n generalizing w p with
  | zero =>
    refine ⟨[], [], 0, none, ?_, .whole, fun h => absurd rfl h⟩
    have hall : (⟨[].reverse ++ w.held, w.checked + 0, brokenBy e none⟩ : Warmed) = w := by
      cases w
      cases hw
      rfl
    rw [hall]
    exact gives_pure w p
  | succ n ih =>
    obtain ⟨m, r, hm, htakes, hless⟩ := gives_connect_once (e := e) p
    cases r with
    | error f =>
      refine ⟨m, [], 0, some f, ?_, .untaken htakes, fun _ => hless⟩
      have hstopped := gives_stopEarly (e := e) w f (p.through m)
      rw [stopped_eq w hw f] at hstopped
      rw [← List.append_nil m]
      exact hm.bind hstopped
    | ok c =>
      have hasked : ∀ events, (m ++ events).countP isCheckOut = 0 ↔ Poolless e p := by
        intro events
        have hone := (tally_of_taken htakes).asked
        rw [← hless, List.countP_append, hone]
        omega
      obtain ⟨_, r, hprobe, o, rfl, rfl⟩ := unfolds_probe c (p.through m)
      cases o with
      | failed f =>
        have hstopped := gives_stopEarly (e := e) { w with held := c :: w.held } f
          ((p.through m).through [⟨check c, .failed f⟩])
        rw [stopped_eq { w with held := c :: w.held } hw f] at hstopped
        exact ⟨_, [c], 0, some f, hm.bind (hprobe.bind hstopped), .unchecked f htakes,
          fun _ => hasked _⟩
      | done reply =>
        obtain ⟨rest, cs, k, last, hrest, hopens, _⟩ :=
          ih { w with held := c :: w.held, checked := w.checked + 1 } hw
            ((p.through m).through [⟨check c, .done reply⟩])
        refine ⟨_, c :: cs, k + 1, last, ?_, .checked reply htakes hopens, fun _ => hasked _⟩
        rw [List.reverse_cons, List.append_assoc, List.singleton_append, Nat.add_comm k 1,
          ← Nat.add_assoc]
        exact hm.bind (hprobe.bind hrest)

private theorem unfolds_releaseAll_inTurn (held : List Nat) (pending : Option Failure) :
    Unfolds (releaseAll pending held) fun events r =>
      events.map Event.call = held.map .release ∧
        ((∀ ev ∈ events, ev.outcome.succeeded = true) → r = pending) := by
  induction held generalizing pending with
  | nil =>
    refine (unfolds_pure pending).mono ?_
    rintro events r ⟨rfl, rfl⟩
    exact ⟨rfl, fun _ => rfl⟩
  | cons c held ih =>
    have hrelease : Unfolds (release c pending).run fun events r => ∃ o,
        events = [⟨.release c, o⟩] ∧ (o.succeeded = true → r = .ok ()) := by
      intro p
      refine ⟨_, _, gives_release c pending p, _, rfl, fun hsucceeded => ?_⟩
      cases hnext : p.script.next .release with
      | failed f =>
        rw [hnext] at hsucceeded
        cases hsucceeded
      | done reply => rfl
    refine (Unfolds.bind (q := fun r events r' => events.map Event.call = held.map .release ∧
      (r = .ok () → (∀ ev ∈ events, ev.outcome.succeeded = true) → r' = pending))
      hrelease fun r => ?_).mono ?_
    · cases r with
      | ok _ => exact (ih pending).mono fun _ _ ⟨hcalls, hall⟩ => ⟨hcalls, fun _ => hall⟩
      | error f => exact (ih (some f)).mono fun _ _ ⟨hcalls, _⟩ => ⟨hcalls, nofun⟩
    · rintro events r' ⟨m, r, k, rfl, ⟨o, rfl, ho⟩, hcalls, hall⟩
      refine ⟨by rw [List.map_append, hcalls]; rfl, fun hsucceeded => ?_⟩
      obtain ⟨hfirst, hrest⟩ := List.forall_mem_append.mp hsucceeded
      exact hall (ho (hfirst _ (List.mem_singleton_self _))) hrest

theorem gives_warmUp (count : Option Int) (p : Prospect) : ∃ opening closing r cs k last,
    Gives (e.warmUp count).run p (opening ++ closing) r ∧
      Opens e (e.warmUpTarget count) opening cs k last ∧
      (e.warmUpTarget count ≠ 0 → (opening.countP isCheckOut = 0 ↔ Poolless e p)) ∧
      closing.map Event.call = cs.reverse.map .release ∧
      ((∀ ev ∈ closing, ev.outcome.succeeded = true) →
        r = (brokenBy e last).elim (.ok k) .error) := by
  obtain ⟨opening, cs, k, last, hopen, hopens, hless⟩ :=
    gives_openConnections (e := e) (e.warmUpTarget count) {} rfl p
  obtain ⟨closing, pending, hclose, hcalls, hall⟩ :=
    unfolds_releaseAll_inTurn (cs.reverse ++ []) (brokenBy e last) (p.through opening)
  rw [List.append_nil] at hcalls
  refine ⟨opening, closing, pending.elim (.ok k) .error, cs, k, last, ?_, hopens, hless, hcalls, ?_⟩
  · refine Gives.andThen hopen.lift ?_
    rw [← List.append_nil closing, Nat.zero_add]
    refine Gives.andThen hclose.lift ?_
    cases pending with
    | some f => exact gives_pure (Except.error f) _
    | none => exact Gives.andThen (gives_log _ _ _ _ _).lift (gives_pure _ _)
  · intro hsucceeded
    rw [hall hsucceeded]

/-! ## What is opened -/

/-- No more connections are asked for than are to be opened, and all that were taken passed their
check but perhaps the last. -/
private theorem tally_of_opens {n k : Nat} {events : List Event} {cs : List Nat}
    {last : Option Failure} (h : Opens e n events cs k last) :
    k ≤ cs.length ∧ ∃ a ≤ n, Tally events a cs (cs.take k) := by
  induction h with
  | whole => exact ⟨Nat.le_refl 0, 0, Nat.le_refl 0, rfl, rfl, rfl, rfl⟩
  | @untaken n m f hm =>
    obtain ⟨a, ha, htally⟩ := tally_of_untaken hm
    exact ⟨Nat.le_refl 0, a, by omega, htally⟩
  | @unchecked n c m f hm =>
    exact ⟨Nat.zero_le _, 1, by omega, (tally_of_taken hm).append (tally_check c (.failed f))⟩
  | @checked n c k m rest cs last reply hm _ ih =>
    obtain ⟨hk, a, ha, htally⟩ := ih
    have hfirst := (tally_of_taken hm).append (tally_check c (.done reply))
    have hall := hfirst.append htally
    rw [List.append_assoc] at hall
    exact ⟨Nat.succ_le_succ hk, 1 + 0 + a, by omega, hall⟩

theorem connects_of_takes {m : List Event} {r : Except Failure Nat} (h : Takes e m r) :
    Connects m r := by
  cases h with
  | unmade f _ => exact .poolless (List.forall_mem_nil _)
  | denied url options f =>
    exact .poolless (List.forall_mem_singleton.mpr ⟨url, options, rfl⟩)
  | refused c f hm => exact .refused c f (pooling_of_pooled hm)
  | taken c reply hm => exact .connected c reply (pooling_of_pooled hm)

theorem forall_of_opens (sort : Call → Prop)
    (hpool : ∀ url options, sort (.createPool url options)) (hcheckOut : ∀ c, sort (.checkOut c))
    (hcheck : ∀ c, sort (check c)) {n k : Nat} {events : List Event} {cs : List Nat}
    {last : Option Failure} (h : Opens e n events cs k last) :
    ∀ ev ∈ events, sort ev.call := by
  have htakes : ∀ {m : List Event} {r : Except Failure Nat}, Takes e m r →
      ∀ ev ∈ m, sort ev.call := fun hm =>
    forall_of_connects hpool hcheckOut (connects_of_takes hm)
  induction h with
  | whole => exact List.forall_mem_nil _
  | untaken hm => exact htakes hm
  | @unchecked n c m f hm =>
    exact List.forall_mem_append.mpr ⟨htakes hm, List.forall_mem_singleton.mpr (hcheck c)⟩
  | @checked n c k m rest cs last reply hm _ ih =>
    exact List.forall_mem_append.mpr ⟨htakes hm, List.forall_mem_cons.mpr ⟨hcheck c, ih⟩⟩

/-- Events none of which failed. -/
abbrev Smooth (m : List Event) : Prop := ∀ ev ∈ m, ev.outcome.succeeded = true

/-- Events in which nothing comes behind a failure. -/
abbrev Stopping (m : List Event) : Prop := m.Pairwise fun ev _ => ev.outcome.succeeded = true

theorem Stopping.behind {m n : List Event} (hm : Smooth m) (hn : Stopping n) :
    Stopping (m ++ n) := by
  refine List.pairwise_append.mpr ⟨?_, hn, fun ev hev _ _ => hm ev hev⟩
  exact List.pairwise_of_forall_mem_list fun ev hev _ _ => hm ev hev

theorem smooth_of_pooled {m : List Event} (h : Pooled m) : Smooth m := by
  rcases h with rfl | ⟨url, options, reply, rfl⟩
  · exact List.forall_mem_nil _
  · exact List.forall_mem_singleton.mpr rfl

private theorem smooth_of_taken {m : List Event} {c : Nat} (h : Takes e m (.ok c)) : Smooth m := by
  cases h with
  | taken c reply hm =>
    exact List.forall_mem_append.mpr ⟨smooth_of_pooled hm, List.forall_mem_singleton.mpr rfl⟩

private theorem stopping_of_untaken {m : List Event} {f : Failure} (h : Takes e m (.error f)) :
    Stopping m := by
  cases h with
  | unmade f _ => exact .nil
  | denied url options f => exact List.pairwise_singleton _ _
  | refused c f hm => exact .behind (smooth_of_pooled hm) (List.pairwise_singleton _ _)

private theorem stopping_of_opens {n k : Nat} {events : List Event} {cs : List Nat}
    {last : Option Failure} (h : Opens e n events cs k last) : Stopping events := by
  induction h with
  | whole => exact .nil
  | untaken hm => exact stopping_of_untaken hm
  | unchecked f hm => exact .behind (smooth_of_taken hm) (List.pairwise_singleton _ _)
  | @checked n c k m rest cs last reply hm _ ih =>
    exact .behind (smooth_of_taken hm) (List.pairwise_cons.mpr ⟨fun _ _ => rfl, ih⟩)

private theorem asked_of_smooth {n k : Nat} {events : List Event} {cs : List Nat}
    {options : PoolOptions}
    {last : Option Failure} (hoptions : poolOptions e.settings = .ok options)
    (h : Opens e n events cs k last)
    (hsmooth : Smooth events) : events.countP isCheckOut = n := by
  induction h with
  | whole => rfl
  | @untaken n m f hm =>
    cases hm with
    | unmade f hnone =>
      rw [hoptions] at hnone
      cases hnone
    | denied url options f => cases hsmooth _ (List.mem_singleton_self _)
    | refused c f hm =>
      have hlast := hsmooth _ (List.mem_append_right _ (List.mem_singleton_self _))
      cases hlast
  | @unchecked n c m f hm =>
    have hlast := hsmooth _ (List.mem_append_right _ (List.mem_singleton_self _))
    cases hlast
  | @checked n c k m rest cs last reply hm _ ih =>
    obtain ⟨_, hbehind⟩ := List.forall_mem_append.mp hsmooth
    have hrest := ih (List.forall_mem_cons.mp hbehind).2
    rw [List.countP_append, (tally_of_taken hm).asked, List.countP_cons, hrest]
    simp [isCheckOut]
    omega

/-! ## What is given back -/

private theorem tally_of_releases {events : List Event} {cs : List Nat}
    (h : events.map Event.call = cs.map .release) :
    events.countP isCheckOut = 0 ∧ takings events = [] ∧ passes events = [] := by
  induction events generalizing cs with
  | nil => exact ⟨rfl, rfl, rfl⟩
  | cons ev events ih =>
    cases cs with
    | nil => cases h
    | cons c cs =>
      obtain ⟨call, o⟩ := ev
      obtain ⟨rfl, hrest⟩ : call = .release c ∧ events.map Event.call = cs.map .release := by
        rwa [List.map_cons, List.map_cons, List.cons.injEq] at h
      exact ih hrest

theorem exists_release {closing : List Event} {cs : List Nat}
    (h : closing.map Event.call = cs.map .release) : ∀ ev ∈ closing, ∃ c, ev.call = .release c := by
  intro ev hev
  have hcall := List.mem_map_of_mem (f := Event.call) hev
  rw [h] at hcall
  obtain ⟨c, _, hc⟩ := List.mem_map.mp hcall
  exact ⟨c, hc.symm⟩

/-- Every connection can be given back. -/
def Releasing (p : Prospect) : Prop := ∀ o ∈ p.script .release, o.succeeded = true

theorem smooth_of_releasing {p : Prospect} {opening closing : List Event} {cs : List Nat}
    (hp : Releasing p) (hallows : p.Allows (opening ++ closing))
    (hcalls : closing.map Event.call = cs.map .release) : Smooth closing := by
  intro ev hev
  obtain ⟨c, hc⟩ := exists_release hcalls ev hev
  have hkind : kindOf ev.call = some .release := by
    rw [hc]
    rfl
  rcases outcome_mem_script hallows ev (List.mem_append_right _ hev) hkind with hmem | hplain
  · exact hp _ hmem
  · rw [hplain]
    rfl

private theorem opened_of_opens {n k : Nat} {limit : Int} {opening closing : List Event}
    {cs : List Nat} {last : Option Failure} {p : Prospect} (hopens : Opens e n opening cs k last)
    (hallows : p.Allows (opening ++ closing))
    (hcalls : closing.map Event.call = cs.reverse.map .release) (hn : (n : Int) ≤ limit) :
    Opened limit (opening ++ closing) ∧ (passes (opening ++ closing)).length = k := by
  obtain ⟨hk, a, ha, htally⟩ := tally_of_opens hopens
  obtain ⟨hasked, htaken, hpassed⟩ := tally_of_releases hcalls
  have htakings : takings (opening ++ closing) = cs := by
    rw [takings, List.filterMap_append, ← takings, ← takings, htally.taken, htaken,
      List.append_nil]
  have hpasses : passes (opening ++ closing) = cs.take k := by
    rw [passes, List.filterMap_append, ← passes, ← passes, htally.passed, hpassed,
      List.append_nil]
  refine ⟨⟨?_, ?_, ⟨opening, closing, rfl, htally.kept, ?_⟩, nodup_takings hallows, ?_⟩, ?_⟩
  · rw [List.countP_append, htally.asked, hasked]
    omega
  · -- Behind a failure there are only the calls that give back.
    have hreleases := exists_release hcalls
    refine List.pairwise_append.mpr ⟨?_, ?_, fun _ _ ev hev => .inr (hreleases ev hev)⟩
    · exact (stopping_of_opens hopens).imp .inl
    · exact List.pairwise_of_forall_mem_list fun _ _ ev hev => .inr (hreleases ev hev)
  · rw [htally.taken, hcalls]
  · rw [htakings, hpasses]
    exact List.take_prefix k cs
  · rw [hpasses, List.length_take_of_le hk]

/-! ## What is told -/

theorem explained_append {m n : List Event} : Explained (m ++ n) ↔ Explained m ∧ Explained n :=
  List.forall_mem_append

private theorem explained_of_smooth {m : List Event} (h : Smooth m) : Explained m := by
  intro ev hev f hfailed _
  have hsucceeded := h ev hev
  rw [hfailed] at hsucceeded
  cases hsucceeded

private theorem explained_failed {x : Call} {f : Failure}
    (hcall : ∀ url options, x ≠ .createPool url options) :
    Explained [⟨x, .failed f⟩] ↔ Tellable f := by
  constructor
  · intro h
    exact h _ (List.mem_singleton_self _) f rfl hcall
  · intro h ev hev g hg _
    obtain rfl := List.mem_singleton.mp hev
    cases hg
    exact h

private theorem tellable_of_poolOptions {settings : DatabaseSettings} {f : Failure}
    (h : poolOptions settings = .error f) : Tellable f := by
  have hwhole : ∀ x, Value.Whole.ofFloat x = .error f → Tellable f := by
    intro x hx
    cases x with
    | nan | infinite _ =>
      cases hx
      exact tellable_of_writable (fun _ _ => FailureKind.noConfusion)
        (List.forall_mem_singleton.mpr rfl)
    | finite _ _ _ => cases hx
  unfold poolOptions timeouts at h
  cases hrecycle : Value.Whole.ofFloat settings.idleTimeout with
  | error g =>
    rw [hrecycle] at h
    cases h
    exact hwhole _ hrecycle
  | ok recycle =>
    rw [hrecycle] at h
    cases hconnect : Value.Whole.ofFloat settings.connectTimeout with
    | error g =>
      rw [hconnect] at h
      split at h
      · cases h
      · cases h
        exact hwhole _ hconnect
    | ok n =>
      rw [hconnect] at h
      split at h <;> cases h

theorem explained_of_untaken {m : List Event} {f : Failure} (h : Takes e m (.error f)) :
    Explained m ↔ Tellable f := by
  cases h with
  | unmade f hoptions =>
    exact iff_of_true (List.forall_mem_nil _) (tellable_of_poolOptions hoptions)
  | denied url options f =>
    refine iff_of_true ?_ (.fault _ rfl)
    intro ev hev g _ hcall
    obtain rfl := List.mem_singleton.mp hev
    exact absurd rfl (hcall url options)
  | refused c f hm =>
    have hlast : Explained [⟨.checkOut c, .failed f⟩] ↔ Tellable f := explained_failed nofun
    rw [explained_append, hlast, and_iff_right (explained_of_smooth (smooth_of_pooled hm))]

theorem explained_of_opens {n k : Nat} {events : List Event} {cs : List Nat}
    {last : Option Failure} (h : Opens e n events cs k last) :
    Explained events ↔ ∀ f ∈ last, Tellable f := by
  induction h with
  | whole => exact iff_of_true (List.forall_mem_nil _) nofun
  | untaken hm => simpa using explained_of_untaken hm
  | @unchecked n c m f hm =>
    have hlast : Explained [⟨check c, .failed f⟩] ↔ Tellable f := explained_failed nofun
    rw [explained_append, hlast, and_iff_right (explained_of_smooth (smooth_of_taken hm))]
    simp
  | @checked n c k m rest cs last reply hm _ ih =>
    have hone : Explained [⟨check c, .done reply⟩] :=
      explained_of_smooth (List.forall_mem_singleton.mpr rfl)
    rw [explained_append, and_iff_right (explained_of_smooth (smooth_of_taken hm)),
      ← List.singleton_append, explained_append, and_iff_right hone, ih]

private theorem warmUpTarget_eq {settings : DatabaseSettings} {server : Server} (count : Option Int)
    (hlimit : 1 ≤ settings.connectionLimit) :
    ((⟨settings, server⟩ : Engine).warmUpTarget count : Int) =
      most (if count = some 0 then none else count) settings.connectionLimit := by
  cases count with
  | none => simp [warmUpTarget, most, usualWarmUp]; omega
  | some n =>
    by_cases hn : n = 0
    · simp [warmUpTarget, most, usualWarmUp, hn]; omega
    · simp [warmUpTarget, most, hn]; omega

private theorem most_usual_pos {limit : Int} (hlimit : 1 ≤ limit) : 0 < most none limit := by
  rw [most]
  omega

/-- A number that was asked for is kept to, if it is not zero; a zero is kept to where no connection
is asked for. -/
private theorem asked_le_most_iff {count : Option Int} {limit : Int} {asked : Nat} {idle : Prop}
    (hlimit : 1 ≤ limit) (hatMost : asked ≤ most (if count = some 0 then none else count) limit)
    (hidle : count = some 0 → (asked = 0 ↔ idle)) :
    asked ≤ most count limit ↔ count ≠ some 0 ∨ idle := by
  by_cases hzero : count = some 0
  · have hnone : most count limit = 0 := by
      rw [hzero, most]
      omega
    rw [or_iff_right (not_not_intro hzero), ← hidle hzero, hnone]
    omega
  · rw [if_neg hzero] at hatMost
    exact iff_of_true hatMost (.inl hzero)

/-- Connections are opened ahead of their use as promised just where every failure of that can be
told, whatever number is asked for but zero: a zero opens as many as no wish at all, if any can be
opened. -/
theorem warmsUp_iff {source : Source} {settings : DatabaseSettings}
    (hsettings : (DatabaseSettings.ofSource source).value? = some settings) (server : Server)
    (count : Option Int) (s : Session) (hrelease : Releasing (prospect s)) :
    ∃ events,
      (course ((⟨settings, server⟩ : Engine).warmUp count).run s).2.journal =
          (entries events).reverse ++ s.journal ∧
        (prospect s).Allows events ∧
        Opened (most (if count = some 0 then none else count) settings.connectionLimit) events ∧
        ((∃ options, poolOptions settings = .ok options) → Smooth events →
          (events.countP isCheckOut : Int) =
            most (if count = some 0 then none else count) settings.connectionLimit) ∧
        ((course ((⟨settings, server⟩ : Engine).warmUp count).run s).1 =
          .ok (passes events).length ↔ Explained events) ∧
        (WarmsUp (most count settings.connectionLimit) events
            (course ((⟨settings, server⟩ : Engine).warmUp count).run s).1 ↔
          (count ≠ some 0 ∨ Poolless ⟨settings, server⟩ (prospect s)) ∧ Explained events) := by
  have hlimit := (inBounds_ofSource hsettings).connectionLimit.1
  have htarget : ((⟨settings, server⟩ : Engine).warmUpTarget count : Int) = _ :=
    warmUpTarget_eq count hlimit
  obtain ⟨opening, closing, r, cs, k, last, hgives, hopens, hless, hcalls, hresult⟩ :=
    gives_warmUp (e := ⟨settings, server⟩) count (prospect s)
  obtain ⟨hcourse, _, hjournal⟩ := hgives.course s rfl
  have hallows := hgives.allowed
  have hclosing := smooth_of_releasing hrelease hallows hcalls
  obtain ⟨hopened, hpassed⟩ := opened_of_opens hopens hallows hcalls (Int.le_of_eq htarget)
  obtain ⟨hreturned, _⟩ := tally_of_releases hcalls
  have htold : r = .ok (passes (opening ++ closing)).length ↔ Explained (opening ++ closing) := by
    rw [hresult hclosing, hpassed, explained_append, explained_of_opens hopens,
      and_iff_left (explained_of_smooth hclosing), ← brokenBy_eq_none_iff (e := ⟨settings, server⟩)]
    cases brokenBy ⟨settings, server⟩ last <;> simp
  rw [hcourse]
  refine ⟨_, hjournal, hallows, hopened, ?_, htold, ?_⟩
  · rintro ⟨options, hoptions⟩ hsmooth
    have hasked := asked_of_smooth hoptions hopens (List.forall_mem_append.mp hsmooth).1
    rw [List.countP_append, hasked, hreturned, ← htarget]
    rfl
  · have hmost : ((opening ++ closing).countP isCheckOut : Int) ≤
        most count settings.connectionLimit ↔
        count ≠ some 0 ∨ Poolless ⟨settings, server⟩ (prospect s) := by
      refine asked_le_most_iff hlimit hopened.atMost fun hzero => ?_
      have hsome : (⟨settings, server⟩ : Engine).warmUpTarget count ≠ 0 := by
        have hwished := most_usual_pos hlimit
        rw [if_pos hzero] at htarget
        omega
      rw [← hless hsome, List.countP_append, hreturned, Nat.add_zero]
    rw [← hmost, ← htold]
    exact ⟨fun h => ⟨h.atMost, h.result⟩,
      fun ⟨hatMost, hr⟩ => ⟨{ hopened with atMost := hatMost }, hr⟩⟩

/-- A session in which the check of the second connection finds it lost. -/
def wavering : Session :=
  { script := fun kind =>
      if kind = .execute then
        [.done .plain,
         .failed (.mk (.general "DriverError") [.int 2013, .text "Lost connection"] none none none)]
      else [] }

theorem warmsUp_iff_wavering :
    (DatabaseSettings.ofSource ⟨[], [], "sqlgate_db_"⟩).value? = some plainEngine.settings ∧
      Releasing (prospect wavering) ∧
      ∃ events,
        (course (plainEngine.warmUp (some 3)).run wavering).2.journal =
            (entries events).reverse ++ wavering.journal ∧
          (prospect wavering).Allows events ∧
          Opened (most (some 3) plainEngine.settings.connectionLimit) events ∧
          ((∃ options, poolOptions plainEngine.settings = .ok options) → Smooth events →
            (events.countP isCheckOut : Int) =
              most (some 3) plainEngine.settings.connectionLimit) ∧
          ((course (plainEngine.warmUp (some 3)).run wavering).1 = .ok (passes events).length ↔
            Explained events) ∧
          (WarmsUp (most (some 3) plainEngine.settings.connectionLimit) events
              (course (plainEngine.warmUp (some 3)).run wavering).1 ↔
            (some (3 : Int) ≠ some 0 ∨ Poolless plainEngine (prospect wavering)) ∧
              Explained events) :=
  have hsettings : (DatabaseSettings.ofSource ⟨[], [], "sqlgate_db_"⟩).value? =
      some plainEngine.settings := by decide +kernel
  have hrelease : Releasing (prospect wavering) := nofun
  ⟨hsettings, hrelease, warmsUp_iff hsettings {} (some 3) wavering hrelease⟩

/-- Five connections are opened where none is asked for. -/
theorem not_warmsUp_zero : ¬ ∃ events,
    (course (plainEngine.warmUp (some 0)).run {}).2.journal = (entries events).reverse ∧
      WarmsUp (most (some 0) plainEngine.settings.connectionLimit) events
        (course (plainEngine.warmUp (some 0)).run {}).1 := by
  rintro ⟨events, hjournal, hwarms⟩
  have hasked : (course (plainEngine.warmUp (some 0)).run {}).2.journal.countP
      (fun entry => isCheckOut ⟨entry.call, .done .plain⟩) = 5 := by decide +kernel
  rw [hjournal, List.countP_reverse, List.countP_map] at hasked
  have hmost : (events.countP isCheckOut : Int) ≤ 0 := hwarms.atMost
  have hsame : events.countP isCheckOut = 5 := hasked
  omega

end QueryGateway.Proofs.Engine.WarmUps
