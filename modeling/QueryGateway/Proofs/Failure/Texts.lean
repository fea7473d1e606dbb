import QueryGateway.Failure
import QueryGateway.Proofs.Number.Numeral
import QueryGateway.Proofs.Success

/-!
Texts of failures. A failure may have none: an integer in its arguments may have too many digits,
and a statement that was not sent may be a tuple, which there is no single place for. Asking for the
text then fails with one of two failures, which have texts themselves.
-/

set_option autoImplicit false
set_option relaxedAutoImplicit false

namespace QueryGateway.Proofs.Failure.Texts

open QueryGateway.Failure
open QueryGateway.Number

variable {f g : Failure} {s : String} {v : Value} {i : Int}

/-- What keeps something from being written: an integer with too many digits, or a tuple where there
is one place. -/
inductive IsObstacle : Failure → Prop
  | unwritable : IsObstacle .unwritable
  | unplaced : IsObstacle .unplaced

def HasText (f : Failure) : Prop := ∃ s, f.text = .ok s

/-! ## Values -/

theorem text?_of_writable (h : v.isWritable = true) :
    Value.Display.text? v = some (String.ofList (Value.Display.chars v)) := by
  rw [Value.Display.text?, if_pos h]

theorem text?_of_not_writable (h : v.isWritable = false) : Value.Display.text? v = none := by
  rw [Value.Display.text?, h]
  rfl

private theorem quoted?_of_writable (h : v.isWritable = true) :
    Value.Display.quoted? v = some (String.ofList (Value.Display.nested v)) := by
  rw [Value.Display.quoted?, if_pos h]

theorem isWritable_int : (Value.int i).isWritable = !Numeral.isTooLong i := by
  rw [Value.isWritable]

theorem written_error {text : Option String} :
    written text = .error g ↔ text = none ∧ g = .unwritable := by
  cases text <;> simp [written, eq_comm]

theorem written_of_writable (h : v.isWritable = true) :
    written (Value.Display.text? v) = .ok (String.ofList (Value.Display.chars v)) := by
  rw [text?_of_writable h]
  rfl

theorem written_of_not_writable (h : v.isWritable = false) :
    written (Value.Display.text? v) = .error .unwritable := by
  rw [text?_of_not_writable h]
  rfl

theorem written_int (h : Numeral.isTooLong i = false) :
    written (Value.Display.text? (.int i)) = .ok (String.ofList (Numeral.ofInt i)) :=
  written_of_writable (by rw [isWritable_int, h]; rfl)

theorem written_int_of_tooLong (h : Numeral.isTooLong i = true) :
    written (Value.Display.text? (.int i)) = .error .unwritable :=
  written_of_not_writable (by rw [isWritable_int, h]; rfl)

theorem written_int_ok : written (Value.Display.text? (.int i)) = .ok s ↔
    Numeral.isTooLong i = false ∧ s = String.ofList (Numeral.ofInt i) := by
  cases h : Numeral.isTooLong i with
  | true => simp [written_int_of_tooLong h]
  | false => simp [written_int h, eq_comm]

theorem invalid_of_writable (message field : String) (code : Code) (hint : Option String)
    (h : v.isWritable = true) :
    ∃ shown, Failure.invalid message field v code hint =
      .ofFault (.invalid message field shown code hint) := by
  have hshown : Fault.shown? v = some (Fault.cut (Value.Display.chars v)) := by
    rw [Fault.shown?, if_pos h]
  unfold Failure.invalid
  split
  · exact ⟨none, rfl⟩
  · rw [hshown]
    exact ⟨_, rfl⟩

theorem invalid_of_short (message field : String) (code : Code) (hint : Option String)
    (h : s.toList.length ≤ Fault.shownLength) :
    Failure.invalid message field (.text s) code hint =
      .ofFault (.invalid message field (some s) code hint) := by
  have hshown : Fault.shown? (.text s) = some s := by
    have hwritable : (Value.text s).isWritable = true := rfl
    rw [Fault.shown?, if_pos hwritable, Value.Display.chars, Fault.cut, if_neg (by omega),
      String.ofList_toList]
  unfold Failure.invalid
  simp only [hshown]

/-! ## Failures -/

@[simp] theorem kind_within (f : Failure) (c : Option Failure) : (f.within c).kind = f.kind := by
  cases c <;> rfl

@[simp] theorem arguments_within (f : Failure) (c : Option Failure) :
    (f.within c).arguments = f.arguments := by
  cases c <;> rfl

@[simp] theorem fault?_within (f : Failure) (c : Option Failure) :
    (f.within c).fault? = f.fault? := by
  rw [fault?, kind_within, fault?]

@[simp] theorem text_within (f : Failure) (c : Option Failure) : (f.within c).text = f.text := by
  rw [text, kind_within, arguments_within, text]

/-- What cannot be written has no context, so it is told from what arose in one. -/
theorem within_ne_unwritable (f c : Failure) : f.within (some c) ≠ .unwritable :=
  fun h => nomatch congrArg Failure.context h

@[simp] theorem fault?_ofFault (g : Fault) : (Failure.ofFault g).fault? = some g := rfl

@[simp] theorem fault?_causedBy (g : Fault) (f : Failure) :
    (Failure.causedBy g f).fault? = some g := rfl

private theorem kind_of_fault? {g : Fault} (h : f.fault? = some g) : f.kind = .refusal g := by
  unfold fault? at h
  split at h
  · cases h
    assumption
  · cases h

/-- The fault that work ends with, if it fails with one. -/
def faultOf? {α : Type} : Except Failure α → Option Fault
  | .ok _ => none
  | .error f => f.fault?

theorem exists_error_of_not_ok {α : Type} {r : Except Failure α} (h : r.isOk = false) :
    ∃ f, r = .error f ∧ f.fault? = faultOf? r := by
  cases r with
  | ok _ => cases h
  | error f => exact ⟨f, rfl, rfl⟩

theorem faultOf?_eq_some {α : Type} {r : Except Failure α} {fault : Fault}
    (h : faultOf? r = some fault) : ∃ f, r = .error f ∧ f.fault? = some fault := by
  cases r with
  | ok _ => cases h
  | error f => exact ⟨f, rfl, h⟩

theorem hasText_of_fault {g : Fault} (h : f.fault? = some g) : HasText f :=
  ⟨g.text, by rw [text, kind_of_fault? h]⟩

theorem IsObstacle.fault? (h : IsObstacle g) : g.fault? = none := by
  cases h <;> rfl

theorem IsObstacle.hasText (h : IsObstacle g) : HasText g := by
  cases h <;> exact ⟨_, rfl⟩

theorem IsObstacle.areWritable (h : IsObstacle g) : ∀ v ∈ g.arguments, v.isWritable = true := by
  cases h <;> exact List.forall_mem_singleton.mpr rfl

theorem IsObstacle.number? (h : IsObstacle g) : g.number? = none := by
  cases h <;> rfl

theorem IsObstacle.kind (h : IsObstacle g) : ∃ c, g.kind = .computation c := by
  cases h <;> exact ⟨_, rfl⟩

private theorem written_obstacle {text : Option String} (h : written text = .error g) :
    IsObstacle g := by
  rw [(written_error.mp h).2]
  exact .unwritable

private theorem placed_obstacle (h : placed v = .error g) : IsObstacle g := by
  unfold placed at h
  split at h
  · exact written_obstacle h
  · cases h
    exact .unplaced
  · exact written_obstacle h

private theorem unsentText_obstacle {message : Option String} {statement params : Value}
    (h : unsentText message statement params = .error g) : IsObstacle g := by
  simp only [unsentText, bind, Except.bind, pure, Except.pure] at h
  split at h
  · cases h
    exact written_obstacle ‹_›
  · split at h
    · cases h
    · split at h
      · cases h
        exact placed_obstacle ‹_›
      · split at h
        · cases h
        · split at h
          · cases h
            exact written_obstacle ‹_›
          · cases h

theorem text_obstacle (h : f.text = .error g) : IsObstacle g := by
  unfold Failure.text at h
  split at h
  · cases h
  · exact written_obstacle h
  · exact written_obstacle h
  · exact unsentText_obstacle h
  · exact written_obstacle h
  · exact written_obstacle h
  · exact written_obstacle h

theorem driverMessage_obstacle (h : f.driverMessage = .error g) : IsObstacle g := by
  unfold Failure.driverMessage at h
  split at h
  · cases h
  · cases h
  · exact text_obstacle h

/-! ## Arguments that can be written -/

theorem areWritable_iff {vs : List Value} :
    Value.areWritable vs = true ↔ ∀ v ∈ vs, v.isWritable = true := by
  induction vs with
  | nil => simp [Value.areWritable]
  | cons v vs ih => rw [Value.areWritable, Bool.and_eq_true, ih, List.forall_mem_cons]

private theorem argumentsText?_isSome {vs : List Value} (h : ∀ v ∈ vs, v.isWritable = true) :
    (argumentsText? vs).isSome = true := by
  have htuple : (Value.tuple vs).isWritable = true := by
    rw [Value.isWritable]
    exact areWritable_iff.mpr h
  unfold argumentsText?
  split
  · rfl
  · rw [text?_of_writable (h _ List.mem_cons_self)]
    rfl
  · rw [quoted?_of_writable htuple]
    rfl

private theorem toolkitText?_isSome {vs : List Value} (h : ∀ v ∈ vs, v.isWritable = true) :
    (toolkitText? vs).isSome = true := by
  unfold toolkitText?
  split
  · rfl
  · rfl
  · exact argumentsText?_isSome h

private theorem parts_of_report {vs : List Value} {r : SystemReport}
    (hr : SystemReport.ofArguments? vs = some r) (h : ∀ v ∈ vs, v.isWritable = true) :
    r.number.isWritable = true ∧ r.message.isWritable = true ∧ r.file.isWritable = true ∧
      r.target.isWritable = true := by
  unfold SystemReport.ofArguments? at hr
  split at hr
  all_goals cases hr
  all_goals simp_all [Value.isWritable]

private theorem filesText?_isSome {r : SystemReport} (hfile : r.file.isWritable = true)
    (htarget : r.target.isWritable = true) : r.filesText?.isSome = true := by
  unfold SystemReport.filesText?
  split
  · rfl
  · rw [quoted?_of_writable hfile]
    rfl
  · rw [quoted?_of_writable hfile, quoted?_of_writable htarget]
    rfl

private theorem reportText?_isSome (named : SystemFailure) {r : SystemReport}
    (hnumber : r.number.isWritable = true) (hmessage : r.message.isWritable = true)
    (hfile : r.file.isWritable = true) (htarget : r.target.isWritable = true) :
    (r.text? named).isSome = true := by
  obtain ⟨files, hfiles⟩ := Option.isSome_iff_exists.mp (filesText?_isSome hfile htarget)
  rw [SystemReport.text?, text?_of_writable hnumber, text?_of_writable hmessage, hfiles]
  split <;> rfl

private theorem systemText?_isSome (named : SystemFailure) {vs : List Value}
    (h : ∀ v ∈ vs, v.isWritable = true) : (systemText? named vs).isSome = true := by
  unfold systemText?
  split
  · obtain ⟨hnumber, hmessage, hfile, htarget⟩ := parts_of_report ‹_› h
    exact reportText?_isSome named hnumber hmessage hfile htarget
  · exact argumentsText?_isSome h

private theorem written_of_isSome {text : Option String} (h : text.isSome = true) :
    ∃ s, written text = .ok s := by
  obtain ⟨s, rfl⟩ := Option.isSome_iff_exists.mp h
  exact ⟨s, rfl⟩

theorem hasText_of_writable (hkind : ∀ statement params, f.kind ≠ .unsent statement params)
    (h : ∀ v ∈ f.arguments, v.isWritable = true) : HasText f := by
  unfold HasText Failure.text
  split
  · exact ⟨_, rfl⟩
  · exact written_of_isSome (systemText?_isSome _ h)
  · exact written_of_isSome (toolkitText?_isSome h)
  · exact absurd ‹_› (hkind _ _)
  · exact written_of_isSome (toolkitText?_isSome h)
  · rename_i hargument
    rw [hargument] at h
    exact written_of_isSome (by rw [quoted?_of_writable (h _ List.mem_cons_self)]; rfl)
  · exact written_of_isSome (argumentsText?_isSome h)

end QueryGateway.Proofs.Failure.Texts
