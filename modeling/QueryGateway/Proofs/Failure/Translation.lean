import QueryGateway.Failure.Wording
import QueryGateway.Proofs.Failure.Texts

/-!
Failures and the faults that tell them. Which failures may be tried again is listed twice: symptoms
are sorted into those that pass and those that stay, and each symptom has a wording whose class says
so again. The two agree, also for failures that no symptom is known of and for faults. A failure is
told unless there is something that has to be written for it and cannot be.
-/

set_option autoImplicit false
set_option relaxedAutoImplicit false

namespace QueryGateway.Proofs.Failure.Translation

open QueryGateway.Failure
open QueryGateway.Number
open QueryGateway.Settings (DatabaseSettings)
open QueryGateway.Proofs.Failure.Texts
open QueryGateway.Proofs.Success

variable {target : Option DatabaseSettings} {f g : Failure} {fault : Fault}

/-! ## Wordings -/

private theorem retryable_iff (c : FaultClass) : c.retryable = true ↔ c = .transient := by
  cases c <;> decide

private theorem category_wording_iff (target : Option DatabaseSettings) (message : String)
    (s : Symptom) :
    (wording target message s).category = .transient ↔ s.isTransient = true := by
  cases s <;> simp [wording, Symptom.isTransient]

private theorem category_unknownWording {message : String} {w : Wording}
    (h : unknownWording f message = .ok w) : w.category ≠ .transient := by
  unfold unknownWording at h
  split at h
  · cases h
    exact FaultClass.noConfusion
  · obtain ⟨_, _, rfl⟩ := map_ok.mp h
    exact FaultClass.noConfusion

theorem toFault_of_refusal (h : f.fault? = some fault) : f.toFault target = .ok fault := by
  rw [toFault, h]

def worded (target : Option DatabaseSettings) (f : Failure) (message : String) :
    Option Symptom → Except Failure Fault
  | some s => .ok ((wording target message s).fault [("driver_error", .text s.name)])
  | none => (unknownWording f message).map fun w => w.fault []

theorem toFault_eq (target : Option DatabaseSettings) (hf : f.fault? = none) :
    f.toFault target =
      (Symptom.ofFailure? f).bind fun symptom =>
        f.driverMessage.bind fun message => worded target f message symptom := by
  rw [toFault, hf]
  cases Symptom.ofFailure? f with
  | error g => rfl
  | ok symptom =>
    cases f.driverMessage with
    | error g => rfl
    | ok message =>
      cases symptom with
      | some s => rfl
      | none =>
        show (unknownWording f message).bind (fun w => .ok (w.fault [])) =
          (unknownWording f message).map fun w => w.fault []
        cases unknownWording f message <;> rfl

/-- A failure that is no fault is told in a wording, which is that of a passing failure just where
the symptom of the failure may pass. -/
private theorem exists_wording (hf : f.fault? = none) (h : f.toFault target = .ok fault) :
    ∃ (w : Wording) (details : Fields) (symptom : Option Symptom), fault = w.fault details ∧
      Symptom.ofFailure? f = .ok symptom ∧
        (w.category = .transient ↔ ∃ s, symptom = some s ∧ s.isTransient = true) := by
  rw [toFault_eq target hf] at h
  obtain ⟨symptom, hsymptom, h⟩ := bind_ok.mp h
  obtain ⟨message, hmessage, h⟩ := bind_ok.mp h
  cases symptom with
  | some s =>
    cases h
    exact ⟨wording target message s, _, some s, rfl, hsymptom, by simp [category_wording_iff]⟩
  | none =>
    obtain ⟨w, hw, rfl⟩ := map_ok.mp h
    exact ⟨w, [], none, rfl, hsymptom, by simp [category_unknownWording hw]⟩

theorem step_toFault (hf : f.fault? = none) (h : f.toFault target = .ok fault) :
    fault.details.get? "step" = none := by
  rw [toFault_eq target hf] at h
  obtain ⟨symptom, hsymptom, h⟩ := bind_ok.mp h
  obtain ⟨message, hmessage, h⟩ := bind_ok.mp h
  cases symptom with
  | some s =>
    cases h
    rfl
  | none =>
    obtain ⟨w, hw, rfl⟩ := map_ok.mp h
    rfl

theorem category_toFault_iff (hf : f.fault? = none) (h : f.toFault target = .ok fault) :
    fault.category = .transient ↔
      ∃ s, Symptom.ofFailure? f = .ok (some s) ∧ s.isTransient = true := by
  obtain ⟨w, details, symptom, rfl, hsymptom, hpasses⟩ := exists_wording hf h
  simp only [hsymptom, Except.ok.injEq]
  exact hpasses

theorem isRetryable_of_refusal (h : f.fault? = some fault) :
    f.isRetryable = .ok fault.retryable := by
  simp only [Failure.isRetryable, h]

theorem isRetryable_of_symptom (hf : f.fault? = none) {symptom : Option Symptom}
    (h : Symptom.ofFailure? f = .ok symptom) :
    f.isRetryable = .ok ((symptom.map Symptom.isTransient).getD false) := by
  simp only [Failure.isRetryable, hf, h, Except.map]

theorem isRetryable_of_toFault (h : f.toFault target = .ok fault) :
    f.isRetryable = .ok fault.retryable := by
  cases hf : f.fault? with
  | some g =>
    rw [toFault_of_refusal hf] at h
    cases h
    exact isRetryable_of_refusal hf
  | none =>
    obtain ⟨w, details, symptom, rfl, hsymptom, hpasses⟩ := exists_wording hf h
    have hflag : (w.fault details).retryable = (symptom.map Symptom.isTransient).getD false := by
      rw [Bool.eq_iff_iff]
      refine (retryable_iff w.category).trans (hpasses.trans ?_)
      cases symptom <;> simp
    rw [isRetryable_of_symptom hf hsymptom, hflag]

/-- Faults of one class with the same code and the same flag, whatever they say. -/
structure OfOneSort (g h : Fault) : Prop where
  category : g.category = h.category
  code : g.code = h.code
  retryable : g.retryable = h.retryable

/-! ## What can be told -/

/-- A failure whose text has to be looked at: nothing else says what it amounts to. -/
structure Unsignalled (f : Failure) : Prop where
  kind : f.kind ≠ .poolTimeout
  number : f.unwrapped.number? = none
  silent : ∀ c ∈ f.unwrapped.chain, Symptom.ofSystem? c = none
  valid : Symptom.isInvalidated f = false

/-- A failure of which nothing is known but a number that no symptom stands for. -/
structure Unfamiliar (f : Failure) (message : String) (n : Int) : Prop where
  kind : f.kind ≠ .poolTimeout
  number : f.unwrapped.number? = some n
  unlisted : Symptom.ofNumber? n = none
  unbroken : breaksUniqueness f message = false

/-- Failures that can be told: faults, and those for which everything can be written that has to be.
That is what the driver said, the text where it alone says what the failure amounts to, and a number
that is not known. -/
inductive Tellable (f : Failure) : Prop
  | fault (g : Fault) : f.fault? = some g → Tellable f
  | worded (message : String) : f.fault? = none → f.driverMessage = .ok message →
      (Unsignalled f → HasText f.unwrapped) →
      (∀ n, Unfamiliar f message n → Numeral.isTooLong n = false) → Tellable f

private theorem ofUnnumbered?_ok_iff (hkind : f.kind ≠ .poolTimeout)
    (hnumber : f.unwrapped.number? = none) :
    (∃ symptom, Symptom.ofUnnumbered? f = .ok symptom) ↔
      (Unsignalled f → HasText f.unwrapped) := by
  unfold Symptom.ofUnnumbered?
  split
  · rename_i s hs
    obtain ⟨c, hc, hsome⟩ := List.exists_of_findSome?_eq_some hs
    refine iff_of_true ⟨some s, rfl⟩ fun h => ?_
    rw [h.silent c hc] at hsome
    cases hsome
  · rename_i hsilent
    split
    · rename_i hvalid
      refine iff_of_true ⟨_, rfl⟩ fun h => ?_
      rw [h.valid] at hvalid
      cases hvalid
    · rename_i hvalid
      have hunsignalled : Unsignalled f :=
        ⟨hkind, hnumber, List.findSome?_eq_none_iff.mp hsilent, by simpa using hvalid⟩
      constructor
      · rintro ⟨symptom, h⟩ _
        obtain ⟨s, hs, _⟩ := map_ok.mp h
        exact ⟨s, hs⟩
      · intro h
        obtain ⟨s, hs⟩ := h hunsignalled
        exact ⟨Symptom.ofMessage? s, by rw [hs]; rfl⟩

private theorem ofFailure?_ok_iff :
    (∃ symptom, Symptom.ofFailure? f = .ok symptom) ↔ (Unsignalled f → HasText f.unwrapped) := by
  unfold Symptom.ofFailure?
  split
  · exact iff_of_true ⟨_, rfl⟩ fun h => absurd ‹_› h.kind
  · rename_i hkind
    split
    · rename_i n hn
      refine iff_of_true ⟨_, rfl⟩ fun h => ?_
      rw [h.number] at hn
      cases hn
    · exact ofUnnumbered?_ok_iff hkind ‹_›

private theorem unknownWording_ok_iff {message : String} :
    (∃ w, unknownWording f message = .ok w) ↔
      (breaksUniqueness f message = false →
        ∀ n, f.unwrapped.number? = some n → Numeral.isTooLong n = false) := by
  unfold unknownWording
  split
  · rename_i hbreaks
    exact iff_of_true ⟨_, rfl⟩ fun h => by rw [hbreaks] at h; cases h
  · rename_i hbreaks
    have hnumber : (∃ s, numberText f = .ok s) ↔
        ∀ n, f.unwrapped.number? = some n → Numeral.isTooLong n = false := by
      unfold numberText
      split
      · rename_i n hn
        simp only [hn, map_ok, written_int_ok, Option.some.injEq, forall_eq']
        exact ⟨fun ⟨_, _, ⟨h, _⟩, _⟩ => h, fun h => ⟨_, _, ⟨h, rfl⟩, rfl⟩⟩
      · rename_i hn
        exact iff_of_true ⟨_, rfl⟩ fun n h => by rw [hn] at h; cases h
    simp only [hbreaks, forall_const, ← hnumber, map_ok]
    exact ⟨fun ⟨_, s, hs, _⟩ => ⟨s, hs⟩, fun ⟨s, hs⟩ => ⟨_, s, hs, rfl⟩⟩

private theorem worded_ok_iff {message : String} {symptom : Option Symptom}
    (hsymptom : Symptom.ofFailure? f = .ok symptom) :
    (∃ g, worded target f message symptom = .ok g) ↔
      ∀ n, Unfamiliar f message n → Numeral.isTooLong n = false := by
  cases symptom with
  | some s =>
    refine iff_of_true ⟨_, rfl⟩ fun n h => ?_
    have hnone : Symptom.ofFailure? f = .ok (Symptom.ofNumber? n) := by
      unfold Symptom.ofFailure?
      split
      · exact absurd ‹_› h.kind
      · rw [h.number]
    rw [hsymptom, h.unlisted] at hnone
    cases hnone
  | none =>
    have hpool : f.kind ≠ .poolTimeout := by
      intro hkind
      simp [Symptom.ofFailure?, hkind] at hsymptom
    have hunlisted : ∀ n, f.unwrapped.number? = some n → Symptom.ofNumber? n = none := by
      intro n hn
      unfold Symptom.ofFailure? at hsymptom
      split at hsymptom
      · exact absurd ‹_› hpool
      · rw [hn] at hsymptom
        exact Except.ok.inj hsymptom
    have hw : (∃ g, worded target f message none = .ok g) ↔
        ∃ w, unknownWording f message = .ok w := by
      simp only [worded, map_ok]
      exact ⟨fun ⟨_, w, hw, _⟩ => ⟨w, hw⟩, fun ⟨w, hw⟩ => ⟨_, w, hw, rfl⟩⟩
    rw [hw, unknownWording_ok_iff]
    exact ⟨fun h n hn => h hn.unbroken n hn.number,
      fun h hbreaks n hn => h n ⟨hpool, hn, hunlisted n hn, hbreaks⟩⟩

theorem toFault_ok_iff (target : Option DatabaseSettings) :
    (∃ g, f.toFault target = .ok g) ↔ Tellable f := by
  constructor
  · rintro ⟨g, h⟩
    cases hf : f.fault? with
    | some g => exact .fault g hf
    | none =>
      rw [toFault_eq target hf] at h
      obtain ⟨symptom, hsymptom, h⟩ := bind_ok.mp h
      obtain ⟨message, hmessage, h⟩ := bind_ok.mp h
      exact .worded message hf hmessage (ofFailure?_ok_iff.mp ⟨symptom, hsymptom⟩)
        ((worded_ok_iff hsymptom).mp ⟨g, h⟩)
  · intro h
    cases h with
    | fault g hg => exact ⟨g, toFault_of_refusal hg⟩
    | worded message hf hmessage htext hnumber =>
      obtain ⟨symptom, hsymptom⟩ := ofFailure?_ok_iff.mpr htext
      obtain ⟨g, hg⟩ : ∃ g, worded target f message symptom = .ok g :=
        (worded_ok_iff hsymptom).mpr hnumber
      exact ⟨g, by rw [toFault_eq target hf, hsymptom, Except.bind, hmessage, Except.bind, hg]⟩

/-- A failure of which every argument can be written can be told, unless it is about a statement
that was not sent. -/
theorem tellable_of_writable
    (hkind : ∀ statement params, f.unwrapped.kind ≠ .unsent statement params)
    (h : ∀ v ∈ f.unwrapped.arguments, v.isWritable = true) : Tellable f := by
  cases hf : f.fault? with
  | some g => exact .fault g hf
  | none =>
    obtain ⟨text, htext⟩ := hasText_of_writable hkind h
    have hmessage : ∃ message, f.driverMessage = .ok message := by
      unfold Failure.driverMessage
      split
      · exact ⟨_, rfl⟩
      · exact ⟨_, rfl⟩
      · exact ⟨text, htext⟩
    obtain ⟨message, hmessage⟩ := hmessage
    refine .worded message hf hmessage (fun _ => ⟨text, htext⟩) fun n hn => ?_
    have hmem : Value.int n ∈ f.unwrapped.arguments := by
      have hnumber := hn.number
      unfold Failure.number? at hnumber
      split at hnumber
      · rename_i harguments
        rw [harguments, ← Option.some.inj hnumber]
        exact List.mem_cons_self
      · cases hnumber
    simpa [isWritable_int] using h _ hmem

/-- A statement that was not sent, as it is a tuple where there is one place. -/
def notSent : Failure :=
  .mk (.unsent (.tuple [.text "SELECT 1", .text "SELECT 2"]) .null) [.text "not carried out"] none
    none none

theorem toFault_notSent (target : Option DatabaseSettings) :
    notSent.toFault target = .error .unplaced := rfl

/-! ## What keeps failures from being told -/

private theorem ofFailure?_obstacle (h : Symptom.ofFailure? f = .error g) : IsObstacle g := by
  have hunnumbered : ∀ g, Symptom.ofUnnumbered? f = .error g → IsObstacle g := by
    intro g h
    unfold Symptom.ofUnnumbered? at h
    split at h
    · cases h
    · split at h
      · cases h
      · cases htext : f.unwrapped.text with
        | ok s =>
          rw [htext] at h
          cases h
        | error g' =>
          rw [htext] at h
          cases h
          exact text_obstacle htext
  unfold Symptom.ofFailure? at h
  split at h
  · cases h
  · split at h
    · cases h
    · exact hunnumbered g h

private theorem worded_obstacle {message : String} {symptom : Option Symptom}
    (h : worded target f message symptom = .error g) : IsObstacle g := by
  cases symptom with
  | some s => cases h
  | none =>
    have hnumber : ∀ g, numberText f = .error g → IsObstacle g := by
      intro g h
      unfold numberText at h
      split at h
      · obtain ⟨hnone, rfl⟩ := written_error.mp (map_error.mp h)
        exact .unwritable
      · cases h
    have hw := map_error.mp h
    unfold unknownWording at hw
    split at hw
    · cases hw
    · exact hnumber g (map_error.mp hw)

theorem toFault_obstacle (h : f.toFault target = .error g) : IsObstacle g := by
  cases hf : f.fault? with
  | some fault =>
    rw [toFault_of_refusal hf] at h
    cases h
  | none =>
    rw [toFault_eq target hf] at h
    cases hsymptom : Symptom.ofFailure? f with
    | error g' =>
      rw [hsymptom] at h
      cases h
      exact ofFailure?_obstacle hsymptom
    | ok symptom =>
      cases hmessage : f.driverMessage with
      | error g' =>
        rw [hsymptom, Except.bind, hmessage] at h
        cases h
        exact driverMessage_obstacle hmessage
      | ok message =>
        rw [hsymptom, Except.bind, hmessage, Except.bind] at h
        exact worded_obstacle h

theorem tellable_obstacle (h : IsObstacle g) (c : Option Failure) : Tellable (g.within c) := by
  obtain ⟨kind, hkind⟩ := h.kind
  have hunwrapped : (g.within c).unwrapped = g.within c := by
    simp only [unwrapped, kind_within, hkind]
  refine tellable_of_writable (fun statement params => ?_) ?_
  · rw [hunwrapped, kind_within, hkind]
    exact FailureKind.noConfusion
  · rw [hunwrapped, arguments_within]
    exact h.areWritable

/-- Whether what kept a failure from being told may be tried again can be said, in whatever context
it arose. -/
theorem isRetryable_obstacle (h : IsObstacle g) (c : Option Failure) :
    ∃ flag, (g.within c).isRetryable = .ok flag := by
  obtain ⟨kind, hkind⟩ := h.kind
  have hunwrapped : (g.within c).unwrapped = g.within c := by
    simp only [unwrapped, kind_within, hkind]
  have htext : HasText (g.within c).unwrapped := by
    rw [hunwrapped, HasText, text_within]
    exact h.hasText
  obtain ⟨symptom, hsymptom⟩ := ofFailure?_ok_iff.mpr fun _ => htext
  exact ⟨_, isRetryable_of_symptom (by rw [fault?_within, h.fault?]) hsymptom⟩

end QueryGateway.Proofs.Failure.Translation
