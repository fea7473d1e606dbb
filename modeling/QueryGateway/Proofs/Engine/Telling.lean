import QueryGateway.Engine
import QueryGateway.Proofs.Failure.Translation

/-!
What an engine makes of a failure. A failure that can be told becomes the fault that tells it, and
one that cannot becomes what keeps it from being told; either has a text, and it can be said of
either whether it may be tried again.
-/

set_option autoImplicit false
set_option relaxedAutoImplicit false

namespace QueryGateway.Proofs.Engine.Telling

open QueryGateway.Engine
open QueryGateway.Proofs.Failure.Texts
open QueryGateway.Proofs.Failure.Translation

variable {e : Engine} {f : Failure} {g : Fault}

theorem faultOf_ok (h : f.toFault (some e.settings) = .ok g) : e.faultOf f = .ok g := by
  rw [faultOf, h]
  rfl

private theorem faultOf_ok_iff : (∃ g, e.faultOf f = .ok g) ↔ Tellable f := by
  rw [← toFault_ok_iff (some e.settings), faultOf]
  cases f.toFault (some e.settings) <;> simp [Except.mapError]

theorem faultOf_of_not_tellable (h : ¬ Tellable f) :
    ∃ o, IsObstacle o ∧ e.faultOf f = .error (o.within (some f)) := by
  cases ho : f.toFault (some e.settings) with
  | ok g => exact absurd ((toFault_ok_iff _).mp ⟨g, ho⟩) h
  | error o =>
    refine ⟨o, toFault_obstacle ho, ?_⟩
    rw [faultOf, ho]
    rfl

theorem told_of_fault (h : f.fault? = some g) : e.told f = f := by
  rw [told, h]

theorem fault?_told (h : f.toFault (some e.settings) = .ok g) : (e.told f).fault? = some g := by
  cases hf : f.fault? with
  | some g' =>
    rw [toFault_of_refusal hf] at h
    cases h
    rw [told_of_fault hf, hf]
  | none =>
    rw [told, hf, faultOf_ok h]
    rfl

private theorem told_of_not_tellable (h : ¬ Tellable f) :
    ∃ o, IsObstacle o ∧ e.told f = o.within (some f) := by
  obtain ⟨o, ho, hfault⟩ := faultOf_of_not_tellable (e := e) h
  refine ⟨o, ho, ?_⟩
  cases hf : f.fault? with
  | some g => exact absurd (.fault g hf) h
  | none => rw [told, hf, hfault]

theorem fault?_told_iff : (∃ g, (e.told f).fault? = some g) ↔ Tellable f := by
  constructor
  · rintro ⟨g, hg⟩
    by_contra hnot
    obtain ⟨o, ho, htold⟩ := told_of_not_tellable (e := e) hnot
    rw [htold, fault?_within, ho.fault?] at hg
    cases hg
  · intro h
    obtain ⟨g, hg⟩ := (toFault_ok_iff (some e.settings)).mpr h
    exact ⟨g, fault?_told hg⟩

theorem hasText_told (e : Engine) (f : Failure) : HasText (e.told f) := by
  by_cases h : Tellable f
  · obtain ⟨g, hg⟩ := fault?_told_iff.mpr h
    exact hasText_of_fault hg
  · obtain ⟨o, ho, htold⟩ := told_of_not_tellable (e := e) h
    rw [htold, HasText, text_within]
    exact ho.hasText

theorem told_ne_unwritable (e : Engine) (f : Failure) : e.told f ≠ .unwritable := by
  intro h
  by_cases htellable : Tellable f
  · obtain ⟨g, hg⟩ := (fault?_told_iff (e := e)).mpr htellable
    rw [h] at hg
    cases hg
  · obtain ⟨o, _, htold⟩ := told_of_not_tellable (e := e) htellable
    exact within_ne_unwritable o f (htold.symm.trans h)

/-- Of everything that goes on to the caller it can be said whether it may be tried again, so that
repeating a plan never has to assume an answer. -/
theorem isRetryable_told (e : Engine) (f : Failure) :
    ∃ flag, (e.told f).isRetryable = .ok flag := by
  by_cases h : Tellable f
  · obtain ⟨g, hg⟩ := fault?_told_iff.mpr h
    exact ⟨_, isRetryable_of_refusal hg⟩
  · obtain ⟨o, ho, htold⟩ := told_of_not_tellable (e := e) h
    rw [htold]
    exact isRetryable_obstacle ho _

theorem toldMessage_ok_iff : (∃ s, e.toldMessage f = .ok s) ↔ Tellable f := by
  rw [← faultOf_ok_iff (e := e), toldMessage]
  cases e.faultOf f <;> simp [Except.map]

theorem toldMessage_error {o : Failure} (h : e.toldMessage f = .error o) :
    HasText o ∧ Tellable o := by
  have hnot : ¬ Tellable f := by
    rw [← toldMessage_ok_iff (e := e), h]
    nofun
  obtain ⟨g, hg, hfault⟩ := faultOf_of_not_tellable (e := e) hnot
  rw [toldMessage, hfault] at h
  cases h
  exact ⟨by rw [HasText, text_within]; exact hg.hasText, tellable_obstacle hg _⟩

end QueryGateway.Proofs.Engine.Telling
