import QueryGateway.CommandLine
import QueryGateway.Proofs.Engine.Tests

/-!
The stages that the program goes through with an engine. A stage is orderly if it comes to its end,
is broken off or fails with a fault that can be told, and if it leaves the pool open. The stages of
an engine are so wherever connections can be given back and failures can be told.
-/

set_option autoImplicit false
set_option relaxedAutoImplicit false

namespace QueryGateway.Proofs.CommandLine.Stages

open QueryGateway.CommandLine
open QueryGateway.Database
open QueryGateway.Proofs.Database.Calls (course)
open QueryGateway.Proofs.Database.Events
open QueryGateway.Proofs.Engine.Connections
open QueryGateway.Proofs.Engine.Tests
open QueryGateway.Proofs.Engine.WarmUps
open QueryGateway.Proofs.Failure.Translation (Tellable)
open QueryGateway.Proofs.Retry.Tries

variable {α β : Type} {q : Prospect → Prop}

/-! ## Pools -/

def makesPool (entry : Entry) : Bool :=
  match entry.call with
  | .createPool _ _ => entry.succeeded
  | _ => false

def closesPool (entry : Entry) : Bool :=
  match entry.call with
  | .disposePool => true
  | _ => false

/-- How a session goes on while no pool is closed: there is one if there was one, or if one was
made. -/
def GoesOn (s t : Session) : Prop :=
  ∃ made, t.journal = made ++ s.journal ∧ made.any closesPool = false ∧
    t.hasPool = (s.hasPool || made.any makesPool)

private theorem goesOn_of_same {s t : Session} (hjournal : t.journal = s.journal)
    (hpool : t.hasPool = s.hasPool) : GoesOn s t :=
  ⟨[], hjournal, rfl, by rw [hpool, List.any_nil, Bool.or_false]⟩

theorem GoesOn.trans {s t u : Session} (hst : GoesOn s t) (htu : GoesOn t u) : GoesOn s u := by
  obtain ⟨m, hm, hmopen, hmpool⟩ := hst
  obtain ⟨n, hn, hnopen, hnpool⟩ := htu
  refine ⟨n ++ m, ?_, ?_, ?_⟩
  · rw [hn, hm, List.append_assoc]
  · rw [List.any_append, hnopen, hmopen, Bool.or_false]
  · rw [hnpool, hmpool, List.any_append, Bool.or_assoc, Bool.or_comm (n.any makesPool)]

/-! ## Work that leaves the pool open -/

/-- Wherever something holds of the prospect, work comes to what it should, the same holds of the
prospect afterwards, and the pool stays open. -/
def Leads (q : Prospect → Prop) (work : Run α) (post : α → Prop) : Prop :=
  ∀ s, q (prospect s) → post (course work s).1 ∧ q (prospect (course work s).2) ∧
    GoesOn s (course work s).2

theorem Leads.mono {work : Run α} {post post' : α → Prop} (h : Leads q work post)
    (himp : ∀ a, post a → post' a) : Leads q work post' := by
  intro s hs
  obtain ⟨hpost, hrest⟩ := h s hs
  exact ⟨himp _ hpost, hrest⟩

theorem leads_pure {post : α → Prop} {a : α} (h : post a) : Leads q (pure a) post :=
  fun _ hs => ⟨h, hs, goesOn_of_same rfl rfl⟩

theorem leads_log (level : Log.Level) (logger message : String) (fields : Fields) :
    Leads q (log level logger message fields) fun _ => True :=
  fun _ hs => ⟨trivial, hs, goesOn_of_same rfl rfl⟩

theorem Leads.bind {work : Run α} {f : α → Run β} {post : α → Prop} {post' : β → Prop}
    (hwork : Leads q work post) (hf : ∀ a, post a → Leads q (f a) post') :
    Leads q (work >>= f) post' := by
  intro s hs
  obtain ⟨hpost, hmiddle, hon⟩ := hwork s hs
  obtain ⟨hpost', hend, hon'⟩ := hf _ hpost _ hmiddle
  exact ⟨hpost', hend, hon.trans hon'⟩

/-! ## Stages -/

/-- What a stage may come to: its end, a break, or a fault. -/
def Orderly : Except Break α → Prop
  | .error (.failure f) => f.fault?.isSome = true
  | _ => True

theorem leads_stage_bind {x : Stage α} {f : α → Stage β} (hx : Leads q x.run Orderly)
    (hf : ∀ a, Leads q (f a).run Orderly) : Leads q (x >>= f).run Orderly := by
  have hcont : ∀ r : Except Break α, Orderly r → Leads q (ExceptT.bindCont f r) Orderly := by
    intro r hr
    cases r with
    | ok a => exact hf a
    | error b =>
      refine leads_pure ?_
      cases b with
      | interruption => trivial
      | failure f => exact hr
  exact Leads.bind hx hcont

theorem leads_stage_lift {work : Run α} (h : Leads q work fun _ => True) :
    Leads q (ExceptT.lift work : Stage α).run Orderly :=
  Leads.bind h fun _ _ => leads_pure trivial

/-- Stages that are orderly wherever something holds of the prospect. -/
structure OrderlyStages (q : Prospect → Prop) (stages : Stages) : Prop where
  test : Leads q stages.test.run Orderly
  warmUp : Leads q stages.warmUp.run Orderly
  serve : ∀ d, Leads q (stages.serve d).run Orderly

/-! ## The stages of an engine -/

/-- Events that close no pool. -/
abbrev Open (events : List Event) : Prop := ∀ ev ∈ events, ev.call ≠ .disposePool

private theorem closed_open : Closed Open := closed_forall (· ≠ .disposePool)

private theorem any_closesPool {events : List Event} (h : Open events) :
    (entries events).any closesPool = false := by
  refine List.any_eq_false.mpr fun entry hentry hcloses => ?_
  obtain ⟨ev, hev, rfl⟩ := List.mem_map.mp hentry
  simp only [closesPool, Event.entry] at hcloses
  split at hcloses
  · rename_i hcall
    exact h ev hev hcall
  · cases hcloses

private theorem hasPool_after {p : Prospect} {ev : Event} (h : ev.call ≠ .disposePool) :
    (p.after ev).hasPool = (p.hasPool || makesPool ev.entry) := by
  obtain ⟨call, o⟩ := ev
  cases call with
  | disposePool => exact absurd rfl h
  | createPool url options => rfl
  | _ => exact (Bool.or_false _).symm

private theorem hasPool_through {p : Prospect} {events : List Event} (h : Open events) :
    (p.through events).hasPool = (p.hasPool || (entries events).any makesPool) := by
  induction events generalizing p with
  | nil => exact (Bool.or_false _).symm
  | cons ev events ih =>
    obtain ⟨hev, hevents⟩ := List.forall_mem_cons.mp h
    have hrest := ih (p := p.after ev) hevents
    rw [hasPool_after hev, Bool.or_assoc] at hrest
    exact hrest

/-- Every connection can be given back, and every failure can be told. -/
structure Benign (p : Prospect) : Prop where
  releasing : Releasing p
  telling : ∀ kind f, .failed f ∈ p.script kind → Tellable f

private theorem benign_through {p : Prospect} (h : Benign p) (events : List Event) :
    Benign (p.through events) where
  releasing := fun o ho => h.releasing o (mem_script_of_through ho)
  telling := fun kind f hf => h.telling kind f (mem_script_of_through hf)

private theorem explained_of_benign {p : Prospect} {events : List Event} (hp : Benign p)
    (hallows : p.Allows events) : Explained events := by
  intro ev hev f hfailed _
  obtain ⟨kind, hmem⟩ := failed_mem_script hallows ev hev hfailed
  exact hp.telling kind f hmem

private theorem leads_of_gives {work : Run α} {post : α → Prop}
    (h : ∀ p, Benign p → ∃ events a, Gives work p events a ∧ Open events ∧ post a) :
    Leads Benign work post := by
  intro s hs
  obtain ⟨events, a, hgives, hopen, hpost⟩ := h _ hs
  obtain ⟨hresult, hend, hjournal⟩ := hgives.course s rfl
  refine ⟨hresult ▸ hpost, ?_, ?_⟩
  · rw [hend]
    exact benign_through hs events
  · refine ⟨(entries events).reverse, hjournal, ?_, ?_⟩
    · rw [List.any_reverse]
      exact any_closesPool hopen
    · have hpool : (course work s).2.hasPool = ((prospect s).through events).hasPool :=
        congrArg Prospect.hasPool hend
      rw [hpool, hasPool_through hopen, List.any_reverse]
      rfl

private theorem tellable_of_probes {e : Engine} {p : Prospect} {events : List Event} {f : Failure}
    (hp : Benign p) (hallows : p.Allows events) (h : Probes e events (.error f)) : Tellable f := by
  have hexplained := explained_of_benign hp hallows
  generalize hy : (.error f : Except Failure Unit) = y at h
  cases h with
  | untaken hm =>
    cases hy
    exact (explained_of_untaken hm).mp hexplained
  | @taken m c checked released hm =>
    cases released with
    | failed g =>
      rcases outcome_mem_script hallows ⟨.release c, .failed g⟩ (by simp) rfl with hmem | hplain
      · cases hp.releasing _ hmem
      · cases hplain
    | done reply =>
      cases checked with
      | done reply => cases hy
      | failed g =>
        cases hy
        exact hexplained ⟨check c, .failed f⟩ (by simp) f rfl nofun

private theorem leads_testConnection (e : Engine) (request : Request) :
    Leads Benign (e.testConnection request).run fun r => ∃ reached, r = .ok reached := by
  refine leads_of_gives fun p hp => ?_
  obtain ⟨front, t, hrow, hgives⟩ := gives_testConnection (exists_tested e) request p
  refine ⟨_, _, hgives, ?_, ?_⟩
  · refine closed_inRow closed_open (fun _ => List.forall_mem_singleton.mpr nofun) ?_ 1
    intro u hu
    obtain ⟨_, htested⟩ := hrow.rule_of_mem u hu
    exact @forall_of_probes e (· ≠ .disposePool) (fun _ _ => nofun) (fun _ => nofun)
      (fun _ => nofun) (fun _ => nofun) u.events u.outcome htested.probes
  · have htold : ∀ u ∈ front ++ [t], ∀ f, u.outcome = .error f → Tellable f := by
      intro u hu f hf
      obtain ⟨before, htested⟩ := hrow.rule_of_mem u hu
      have hprobes := htested.probes
      rw [hf] at hprobes
      exact tellable_of_probes (benign_through hp before) htested.course.allowed hprobes
    obtain ⟨reached, hreached, -⟩ := ((promised_iff hrow).mpr htold).truth
    exact ⟨reached, hreached⟩

/-- Where every failure can be told and every connection given back, opening connections ahead of
their use raises nothing. -/
private theorem leads_warmUp (e : Engine) (count : Option Int) :
    Leads Benign (e.warmUp count).run fun r => ∃ k, r = .ok k := by
  refine leads_of_gives fun p hp => ?_
  obtain ⟨opening, closing, r, cs, k, last, hgives, hopens, _, hcalls, hresult⟩ :=
    gives_warmUp (e := e) count p
  have hclosing := smooth_of_releasing hp.releasing hgives.allowed hcalls
  have hexplained := (explained_append.mp (explained_of_benign hp hgives.allowed)).1
  have hunbroken : brokenBy e last = none :=
    brokenBy_eq_none_iff.mpr ((explained_of_opens hopens).mp hexplained)
  have hcount : r = .ok k := by
    rw [hresult hclosing, hunbroken]
    rfl
  refine ⟨_, r, hgives, List.forall_mem_append.mpr ⟨?_, ?_⟩, k, hcount⟩
  · exact forall_of_opens (· ≠ .disposePool) (fun _ _ => nofun) (fun _ => nofun)
      (fun _ => nofun) hopens
  · intro ev hev
    obtain ⟨c, hc⟩ := exists_release hcalls ev hev
    rw [hc]
    exact nofun

theorem orderly_ofEngine (e : Engine) (request : Request) {serve : Dispatcher → Run Served}
    (hserve : ∀ d, Leads Benign (serve d) fun r => Orderly r.outcome) :
    OrderlyStages Benign (.ofEngine e request serve) where
  test := by
    refine Leads.bind (leads_testConnection e request) fun r hr => leads_pure ?_
    obtain ⟨reached, rfl⟩ := hr
    trivial
  warmUp := by
    refine Leads.bind (leads_warmUp e none) fun r hr => leads_pure ?_
    obtain ⟨k, rfl⟩ := hr
    trivial
  serve := fun d => Leads.bind (hserve d) fun _ hr => leads_pure hr

end QueryGateway.Proofs.CommandLine.Stages
