import Mathlib.Data.List.Nodup
import QueryGateway.Proofs.Database.Events

/-!
Connections that stand checked out. Events handle connections within a limit if none is taken
beyond it and none is given back that is not held; what they take and give back can then be counted.
-/

set_option autoImplicit false
set_option relaxedAutoImplicit false

namespace QueryGateway.Proofs.Database.Holding

open QueryGateway.Database
open QueryGateway.Proofs.Database.Events

def taken (ev : Event) : Option Nat :=
  match ev.call with
  | .checkOut c => if ev.outcome.succeeded then some c else none
  | _ => none

/-- The connection that an event gives back, whether that succeeds or not. -/
def returned (ev : Event) : Option Nat :=
  match ev.call with
  | .release c => some c
  | _ => none

/-- The connections that events take, in order. -/
abbrev takings (events : List Event) : List Nat := events.filterMap taken

/-- The connections that events give back, in order. -/
abbrev returns (events : List Event) : List Nat := events.filterMap returned

def holding (held : List Nat) (ev : Event) : List Nat :=
  match taken ev, returned ev with
  | some c, _ => c :: held
  | none, some c => held.erase c
  | none, none => held

/-- The connections that stand checked out after events, the latest first. -/
def standing (events : List Event) : List Nat := events.foldl holding []

/-- What is demanded of the connections of a call: each that is taken is given back exactly once,
behind the event that took it, and no more than some number of them stand checked out at any
time. -/
structure Tidy (most : Int) (events : List Event) : Prop where
  closed : ∀ front c reply rest, events = front ++ ⟨.checkOut c, .done reply⟩ :: rest →
    (returns front).count c = 0 ∧ (returns rest).count c = 1
  bounded : ∀ front, front <+: events → ((standing front).length : Int) ≤ most

/-- An event that neither takes a connection nor gives one back. -/
def Neutral (ev : Event) : Prop := taken ev = none ∧ returned ev = none

/-- Events that lead from connections held to connections held, within a limit. -/
inductive Handles (limit : Nat) : List Nat → List Event → List Nat → Prop
  | nil {held : List Nat} : Handles limit held [] held
  | taking {held left : List Nat} {rest : List Event} (c : Nat) (reply : Reply) :
      held.length < limit → Handles limit (c :: held) rest left →
      Handles limit held (⟨.checkOut c, .done reply⟩ :: rest) left
  | returning {held left : List Nat} {rest : List Event} (c : Nat) (o : Outcome) : c ∈ held →
      Handles limit (held.erase c) rest left →
      Handles limit held (⟨.release c, o⟩ :: rest) left
  | passing {held left : List Nat} {ev : Event} {rest : List Event} : Neutral ev →
      Handles limit held rest left → Handles limit held (ev :: rest) left

variable {limit : Nat} {held left : List Nat} {events : List Event}

namespace Handles

theorem append {m n : List Event} {middle : List Nat} (hm : Handles limit held m middle)
    (hn : Handles limit middle n left) : Handles limit held (m ++ n) left := by
  induction hm with
  | nil => exact hn
  | taking c reply hroom _ ih => exact .taking c reply hroom (ih hn)
  | returning c o hheld _ ih => exact .returning c o hheld (ih hn)
  | passing hev _ ih => exact .passing hev (ih hn)

theorem neutral (h : ∀ ev ∈ events, Neutral ev) : Handles limit held events held := by
  induction events with
  | nil => exact .nil
  | cons ev events ih =>
    obtain ⟨hev, hevents⟩ := List.forall_mem_cons.mp h
    exact .passing hev (ih hevents)

theorem mono {limit' : Nat} (hle : limit ≤ limit') (h : Handles limit held events left) :
    Handles limit' held events left := by
  induction h with
  | nil => exact .nil
  | taking c reply hroom _ ih => exact .taking c reply (Nat.lt_of_lt_of_le hroom hle) ih
  | returning c o hheld _ ih => exact .returning c o hheld ih
  | passing hev _ ih => exact .passing hev ih

private theorem foldl_eq (h : Handles limit held events left) :
    events.foldl holding held = left := by
  induction h with
  | nil => rfl
  | taking c reply _ _ ih => exact ih
  | returning c o _ _ ih => exact ih
  | @passing held left ev rest hev _ ih =>
    have hsame : holding held ev = held := by rw [holding, hev.1, hev.2]
    rw [List.foldl_cons, hsame]
    exact ih

theorem split {m n : List Event} (h : Handles limit held (m ++ n) left) :
    ∃ middle, Handles limit held m middle ∧ Handles limit middle n left := by
  induction m generalizing held with
  | nil => exact ⟨held, .nil, h⟩
  | cons ev m ih =>
    cases h with
    | taking c reply hroom hrest =>
      obtain ⟨middle, hm, hn⟩ := ih hrest
      exact ⟨middle, .taking c reply hroom hm, hn⟩
    | returning c o hheld hrest =>
      obtain ⟨middle, hm, hn⟩ := ih hrest
      exact ⟨middle, .returning c o hheld hm, hn⟩
    | passing hev hrest =>
      obtain ⟨middle, hm, hn⟩ := ih hrest
      exact ⟨middle, .passing hev hm, hn⟩

private theorem length_le (hheld : held.length ≤ limit) (h : Handles limit held events left) :
    left.length ≤ limit := by
  induction h with
  | nil => exact hheld
  | taking c reply hroom _ ih => exact ih hroom
  | @returning held left rest c o hmem _ ih =>
    refine ih ?_
    rw [List.length_erase_of_mem hmem]
    omega
  | passing _ _ ih => exact ih hheld

private theorem count_eq (h : Handles limit held events left) (c : Nat) :
    held.count c + (takings events).count c = left.count c + (returns events).count c := by
  induction h with
  | nil => rfl
  | @taking held left rest d reply _ _ ih =>
    have htakings : takings (⟨.checkOut d, .done reply⟩ :: rest) = d :: takings rest := rfl
    have hreturns : returns (⟨.checkOut d, .done reply⟩ :: rest) = returns rest := rfl
    rw [List.count_cons] at ih
    rw [htakings, hreturns, List.count_cons, ← ih]
    omega
  | @returning held left rest d o hmem _ ih =>
    have htakings : takings (⟨.release d, o⟩ :: rest) = takings rest := rfl
    have hreturns : returns (⟨.release d, o⟩ :: rest) = d :: returns rest := rfl
    have hpos : 0 < held.count d := List.count_pos_iff.mpr hmem
    rw [htakings, hreturns]
    by_cases hcd : d = c
    · subst hcd
      rw [List.count_erase_self] at ih
      rw [List.count_cons_self]
      omega
    · rw [List.count_erase_of_ne (Ne.symm hcd)] at ih
      rwa [List.count_cons_of_ne hcd]
  | @passing held left ev rest hev _ ih =>
    have htakings : takings (ev :: rest) = takings rest := List.filterMap_cons_none hev.1
    have hreturns : returns (ev :: rest) = returns rest := List.filterMap_cons_none hev.2
    rw [htakings, hreturns]
    exact ih

end Handles

/-! ## Numbers of connections -/

private theorem opened_after (p : Prospect) (ev : Event) :
    (p.after ev).opened = match taken ev with
      | some _ => p.opened + 1
      | none => p.opened := by
  obtain ⟨call, o⟩ := ev
  cases call with
  | checkOut c => cases o <;> rfl
  | _ => rfl

private theorem number_of_taken {p : Prospect} {ev : Event} {c : Nat} (h : p.Admits ev)
    (htaken : taken ev = some c) : c = p.opened := by
  unfold taken at htaken
  split at htaken
  · rename_i d hcall
    split at htaken
    · cases htaken
      exact h.2 _ hcall
    · cases htaken
  · cases htaken

private theorem takings_eq {p : Prospect} (h : p.Allows events) :
    takings events = List.range' p.opened (takings events).length := by
  induction events generalizing p with
  | nil => rfl
  | cons ev events ih =>
    obtain ⟨hadmits, hrest⟩ := h
    have hevents := ih hrest
    have hopened := opened_after p ev
    cases htaken : taken ev with
    | none =>
      rw [htaken] at hopened
      rw [hopened] at hevents
      rwa [takings, List.filterMap_cons_none htaken]
    | some c =>
      rw [htaken] at hopened
      rw [hopened] at hevents
      have hc := number_of_taken hadmits htaken
      rw [takings, List.filterMap_cons_some htaken, List.length_cons, List.range'_succ, ← hevents,
        hc]

theorem nodup_takings {p : Prospect} (h : p.Allows events) : (takings events).Nodup := by
  rw [takings_eq h]
  exact List.nodup_range'

/-! ## Calls -/

/-- Where no connection is held before and after events that are within a limit, their connections
are as they should be. -/
theorem tidy_of_handles {p : Prospect} (hallows : p.Allows events)
    (h : Handles limit [] events []) : Tidy limit events where
  closed := by
    intro front c reply rest hevents
    rw [hevents] at h hallows
    have hnodup := nodup_takings hallows
    have htakings : takings (front ++ ⟨.checkOut c, .done reply⟩ :: rest) =
        takings front ++ c :: takings rest := by
      rw [takings, List.filterMap_append]
      rfl
    rw [htakings, List.nodup_middle, List.nodup_cons, List.mem_append, not_or] at hnodup
    obtain ⟨⟨hfront, hrest⟩, _⟩ := hnodup
    obtain ⟨middle, hm, hn⟩ := h.split
    have hbefore := hm.count_eq c
    rw [List.count_nil, List.count_eq_zero.mpr hfront] at hbefore
    cases hn with
    | passing hev _ => cases hev.1
    | taking _ _ _ hn =>
      have hbehind := hn.count_eq c
      rw [List.count_cons_self, List.count_nil, List.count_eq_zero.mpr hrest] at hbehind
      omega
  bounded := by
    rintro front ⟨rest, rfl⟩
    obtain ⟨middle, hm, _⟩ := h.split
    have hlength := hm.length_le (Nat.zero_le limit)
    rw [standing, hm.foldl_eq]
    omega

end QueryGateway.Proofs.Database.Holding
