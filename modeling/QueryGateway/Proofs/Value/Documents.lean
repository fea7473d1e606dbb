import QueryGateway.Proofs.Failure.Texts
import QueryGateway.Proofs.Value.Strict

/-!
Documents of values in objects whose keys are of any kind. What is made portable is strict, and its
text one that every reader of JSON takes, just if all the floating-point numbers that come into it
are finite; and there is a text at all just if no integer in it or in a key has too many digits.
-/

set_option autoImplicit false
set_option relaxedAutoImplicit false

namespace QueryGateway.Proofs.Value.Documents

open QueryGateway
open QueryGateway.Number
open QueryGateway.Value.Display (chars text?)
open QueryGateway.Proofs.Entries
open QueryGateway.Proofs.Failure.Texts (areWritable_iff)
open QueryGateway.Proofs.Number.Numeral (isTooLong_eq_false)
open QueryGateway.Proofs.Value.Grammar (IsText)
open QueryGateway.Proofs.Value.Portable
open QueryGateway.Proofs.Value.Strict

-- Powers are those of the core library, whatever else is in scope.
attribute [local instance (high)] instPowNat

/-! ## What comes into the portable value -/

/-- Whether one of some entries has a key of the same text as `k`. -/
def isRenewed (k : Value) (es : List (Value × Nested)) : Bool :=
  es.any fun e => String.ofList (chars e.1) == String.ofList (chars k)

mutual

/-- The single values in a value, but for those under keys whose texts come once more. -/
def leaves : Nested → List Value
  | .scalar v _ => [v]
  | .list ns | .tuple ns => itemLeaves ns
  | .dict es => entryLeaves es

def itemLeaves : List Nested → List Value
  | [] => []
  | n :: ns => leaves n ++ itemLeaves ns

/-- The single values in those entries that count. -/
def entryLeaves : List (Value × Nested) → List Value
  | [] => []
  | (k, n) :: es => (if isRenewed k es then [] else leaves n) ++ entryLeaves es

end

/-- A property that a container has just if all that it holds has it. -/
structure Inherited (good : Value → Prop) : Prop where
  list : ∀ vs, good (.list vs) ↔ ∀ v ∈ vs, good v
  object : ∀ es : Fields, es.keys.Nodup → (good (.object es) ↔ ∀ e ∈ es, good e.2)

variable {good : Value → Prop}

private theorem good_items_iff {ns : List Nested} {vs : List Value}
    (h : List.Forall₂ (fun n v => n.portable? = some v) ns vs)
    (hgood : ∀ n ∈ ns, ∀ v, n.portable? = some v → (good v ↔ ∀ x ∈ leaves n, good x.portable)) :
    (∀ v ∈ vs, good v) ↔ ∀ x ∈ itemLeaves ns, good x.portable := by
  induction h with
  | nil => simp [itemLeaves]
  | cons hv _ ih =>
    obtain ⟨hn, hns⟩ := List.forall_mem_cons.mp hgood
    rw [itemLeaves, List.forall_mem_append, List.forall_mem_cons, hn _ hv, ih hns]

private theorem has_eq_isRenewed {es : List (Value × Nested)} {fields : Fields} {k : Value}
    {key : String}
    (h : List.Forall₂ (fun e f => text? e.1 = some f.1 ∧ e.2.portable? = some f.2) es fields)
    (hkey : text? k = some key) : Fields.has fields key = isRenewed k es := by
  have htext : ∀ {k : Value} {key : String},
      text? k = some key → String.ofList (chars k) = key := by
    intro k key hk
    rw [text?] at hk
    split at hk
    · exact Option.some.inj hk
    · cases hk
  induction h with
  | nil => rfl
  | cons hf _ ih =>
    rw [has_cons, ih, isRenewed, isRenewed, List.any_cons, htext hf.1, htext hkey]

private theorem good_entries_iff {es : List (Value × Nested)} {fields : Fields}
    (h : List.Forall₂ (fun e f => text? e.1 = some f.1 ∧ e.2.portable? = some f.2) es fields)
    (hgood : ∀ e ∈ es, ∀ v, e.2.portable? = some v →
      (good v ↔ ∀ x ∈ leaves e.2, good x.portable)) :
    (∀ f ∈ lasting fields, good f.2) ↔ ∀ x ∈ entryLeaves es, good x.portable := by
  induction h with
  | nil => simp [lasting, entryLeaves]
  | @cons e f es fields hf hall ih =>
    obtain ⟨k, n⟩ := e
    obtain ⟨hn, hes⟩ := List.forall_mem_cons.mp hgood
    rw [lasting, entryLeaves, has_eq_isRenewed hall hf.1, List.forall_mem_append, ← ih hes]
    split
    · simp
    · rw [List.forall_mem_cons, hn _ hf.2]

/-- What is made portable has such a property just if all single values that come into it have
it. -/
private theorem good_iff_leaves (h : Inherited good) {n : Nested} {v : Value}
    (hv : n.portable? = some v) : good v ↔ ∀ x ∈ leaves n, good x.portable := by
  have hitems : ∀ {ns : List Nested} {v : Value},
      (∀ n ∈ ns, ∀ v, n.portable? = some v → (good v ↔ ∀ x ∈ leaves n, good x.portable)) →
      (Nested.portableItems? ns).map Value.list = some v →
      (good v ↔ ∀ x ∈ itemLeaves ns, good x.portable) := by
    intro ns v hns hv
    obtain ⟨vs, hvs, rfl⟩ := Option.map_eq_some_iff.mp hv
    rw [h.list]
    exact good_items_iff (portableItems?_eq_some.mp hvs) hns
  induction n using nested_induction generalizing v with
  | scalar w single =>
    cases hv
    rw [leaves, List.forall_mem_singleton]
  | list ns ih => exact hitems (fun n hn v hv => ih n hn hv) hv
  | tuple ns ih => exact hitems (fun n hn v hv => ih n hn hv) hv
  | dict es ih =>
    obtain ⟨fields, hfields, rfl⟩ := Option.map_eq_some_iff.mp hv
    have hkeys : (Fields.keys (Fields.update [] fields)).Nodup := nodup_update List.nodup_nil
    have hlasting : (∀ f ∈ Fields.update [] fields, good f.2) ↔ ∀ f ∈ lasting fields, good f.2 := by
      simp only [mem_update, List.not_mem_nil, false_and, or_false]
    rw [h.object _ hkeys, hlasting, leaves]
    exact good_entries_iff (portableEntries?_eq_some.mp hfields) fun e he v hv => ih e he hv

/-! ## Two such properties -/

private theorem areWritableEntries_iff {es : Fields} :
    Value.areWritableEntries es = true ↔ ∀ e ∈ es, e.2.isWritable = true := by
  induction es with
  | nil => simp [Value.areWritableEntries]
  | cons e es ih =>
    obtain ⟨k, v⟩ := e
    rw [Value.areWritableEntries, Bool.and_eq_true, ih, List.forall_mem_cons]

private theorem inherited_isWritable : Inherited fun v => v.isWritable = true where
  list _ := areWritable_iff
  object _ _ := areWritableEntries_iff

private theorem inherited_isStrict : Inherited IsStrict where
  list _ := isStrict_list_iff
  object _ hkeys := isStrict_object_iff hkeys

private theorem isWritable_portable_iff {x : Value} (hx : x.isScalar = true) :
    x.portable.isWritable = true ↔ ∀ i, x = .int i → Numeral.isTooLong i = false := by
  cases x with
  | int i => simp [Value.portable, Value.isWritable]
  | list vs => cases hx
  | tuple vs => cases hx
  | object es => cases hx
  | _ => simp [Value.portable, Value.isWritable]

/-! ## Durations -/

private theorem isFinite_ofRatio (negative : Bool) {num : Nat} (den : Nat)
    (h : num < 2 ^ (200 : Nat)) :
    (Binary64.ofRatio negative num den).isFinite = true := by
  by_cases hnum : num = 0
  · rw [Binary64.ofRatio, if_pos hnum]
    rfl
  have hlog : num.log2 < 200 := (Nat.log2_lt hnum).mpr h
  rw [Binary64.ofRatio, if_neg hnum]
  extract_lets logarithm unit e least s m
  have he : e ≤ logarithm - 52 := by
    unfold e
    split <;> omega
  have hleast : least ≤ 200 := by
    unfold least logarithm Binary64.leastExponent at *
    omega
  have hfits : ∀ (m : Nat) (e : Int), e ≤ 201 →
      (if Binary64.greatestExponent < e then Binary64.infinite negative
        else .finite negative m e).isFinite = true := by
    intro m e hle
    rw [if_neg (by rw [Binary64.greatestExponent]; omega)]
    rfl
  -- A mantissa that is rounded up to the next power of two adds one to the exponent.
  by_cases hm : m = 2 ^ (53 : Nat)
  · rw [if_pos hm]
    exact hfits _ _ (by omega)
  · rw [if_neg hm]
    exact hfits _ _ (by omega)

private theorem isFinite_durationSeconds {u : Int} (h : IsSpan u) :
    (Value.Calendar.durationSeconds u).isFinite = true := by
  refine isFinite_ofRatio _ 1000000 ?_
  rw [IsSpan, Value.Calendar.dayLength] at h
  omega

private theorem isStrict_portable_iff {x : Value} (hx : x.isScalar = true)
    (hduration : ∀ u, x = .duration u → IsSpan u) :
    IsStrict x.portable ↔ ∀ f, x = .float f → f.isFinite = true := by
  cases x with
  | null => exact iff_of_true .null nofun
  | bool b => exact iff_of_true (.bool b) nofun
  | int i => exact iff_of_true (.int i) nofun
  | float f =>
    refine isStrict_float_iff.trans ⟨?_, fun h => h f rfl⟩
    rintro h _ ⟨⟩
    exact h
  | duration u =>
    exact iff_of_true (.float (isFinite_durationSeconds (hduration u rfl))) nofun
  | list vs => cases hx
  | tuple vs => cases hx
  | object es => cases hx
  | _ => exact iff_of_true (.text _) nofun

/-! ## Documents -/

private theorem forall_itemLeaves {p : Value → Prop} {ns : List Nested}
    (h : ∀ n ∈ ns, ∀ x ∈ leaves n, p x) : ∀ x ∈ itemLeaves ns, p x := by
  induction ns with
  | nil => exact List.forall_mem_nil p
  | cons n ns ih =>
    obtain ⟨hn, hns⟩ := List.forall_mem_cons.mp h
    exact List.forall_mem_append.mpr ⟨hn, ih hns⟩

private theorem forall_entryLeaves {p : Value → Prop} {es : List (Value × Nested)}
    (h : ∀ e ∈ es, ∀ x ∈ leaves e.2, p x) : ∀ x ∈ entryLeaves es, p x := by
  induction es with
  | nil => exact List.forall_mem_nil p
  | cons e es ih =>
    obtain ⟨he, hes⟩ := List.forall_mem_cons.mp h
    refine List.forall_mem_append.mpr ⟨?_, ih hes⟩
    split
    · exact List.forall_mem_nil p
    · exact he

private theorem leaves_of_wellFormed {n : Nested} (hn : WellFormed n) :
    ∀ x ∈ leaves n, x.isScalar = true ∧ ∀ u, x = .duration u → IsSpan u := by
  induction hn with
  | @scalar v single hduration => exact List.forall_mem_singleton.mpr ⟨single, hduration⟩
  | list _ ih => exact forall_itemLeaves ih
  | tuple _ ih => exact forall_itemLeaves ih
  | dict _ _ ih => exact forall_entryLeaves ih

private theorem document?_ofValue {sort : Binary64 → Prop} {v : Value} (h : IsJson sort v) :
    (Nested.ofValue v).document? = Value.Json.text? v := by
  rw [Nested.document?, portable?_ofValue_of_isJson h]
  rfl

private theorem text?_eq_some {v : Value} {s : String} : Value.Json.text? v = some s ↔
    v.isWritable = true ∧ String.ofList (Value.Json.chars (.indented 0) v) = s := by
  rw [Value.Json.text?]
  split <;> simp_all

/-- Where no key comes twice, it makes no difference to the document whether keys might be of any
kind. -/
theorem document?_of_keyed {v : Value} (h : Keyed v) :
    (Nested.ofValue v).document? = Value.Json.document? v := by
  rw [Nested.document?, portable?_ofValue h]
  rfl

/-- A value that is made portable, all its numbers finite, and then written as a text that follows
the grammar of JSON. -/
def Serializes (n : Nested) : Prop :=
  ∃ v s, n.portable? = some v ∧ IsStrict v ∧ (Nested.ofValue v).document? = some s ∧
    IsText s.toList

/-- A single value that JSON has a number for, if it is one, and that is not too long to be
written. -/
def Fits (x : Value) : Prop :=
  (∀ f, x = .float f → f.isFinite = true) ∧ ∀ i, x = .int i → Numeral.isTooLong i = false

/-- What is made portable is always of the kinds that JSON has, but a number that is not finite
stays as it is, and its word then stands in the text. So a value becomes a document of JSON just if
all numbers that come into it are finite, and none in it or in a key has too many digits. -/
theorem serializes_iff {n : Nested} (hn : WellFormed n) :
    (Serializes n ↔ (∀ k ∈ keys n, k.isWritable = true) ∧ ∀ x ∈ leaves n, Fits x) ∧
      ∀ v, n.portable? = some v → IsJson (fun _ => True) v ∧
        (IsStrict v ↔ ∀ x ∈ leaves n, ∀ f, x = .float f → f.isFinite = true) ∧
        ∀ s, (Nested.ofValue v).document? = some s → (IsText s.toList ↔ IsStrict v) := by
  have hleaves := leaves_of_wellFormed hn
  have hstrict : ∀ v, n.portable? = some v →
      (IsStrict v ↔ ∀ x ∈ leaves n, ∀ f, x = .float f → f.isFinite = true) := by
    intro v hv
    refine (good_iff_leaves inherited_isStrict hv).trans (forall₂_congr fun x hx => ?_)
    exact isStrict_portable_iff (hleaves x hx).1 (hleaves x hx).2
  have hwritable : ∀ v, n.portable? = some v →
      (v.isWritable = true ↔ ∀ x ∈ leaves n, ∀ i, x = .int i → Numeral.isTooLong i = false) := by
    intro v hv
    refine (good_iff_leaves inherited_isWritable hv).trans (forall₂_congr fun x hx => ?_)
    exact isWritable_portable_iff (hleaves x hx).1
  have htext : ∀ v, n.portable? = some v → ∀ s, (Nested.ofValue v).document? = some s →
      (IsText s.toList ↔ IsStrict v) := by
    intro v hv s hs
    have hjson := isJson_of_portable? hv
    rw [document?_ofValue hjson, text?_eq_some] at hs
    rw [← hs.2, String.toList_ofList]
    exact isText_chars_iff hjson _
  refine ⟨⟨?_, ?_⟩, fun v hv => ⟨isJson_of_portable? hv, hstrict v hv, htext v hv⟩⟩
  · rintro ⟨v, s, hv, hall, hs, -⟩
    rw [document?_ofValue (isJson_of_portable? hv), text?_eq_some] at hs
    refine ⟨(isSome_portable? n).mp (Option.isSome_of_eq_some hv), fun x hx => ⟨?_, ?_⟩⟩
    · exact (hstrict v hv).mp hall x hx
    · exact (hwritable v hv).mp hs.1 x hx
  · rintro ⟨hkeys, hfits⟩
    obtain ⟨v, hv⟩ := Option.isSome_iff_exists.mp ((isSome_portable? n).mpr hkeys)
    have hall : IsStrict v := (hstrict v hv).mpr fun x hx => (hfits x hx).1
    have hs : (Nested.ofValue v).document? =
        some (String.ofList (Value.Json.chars (.indented 0) v)) := by
      rw [document?_ofValue hall, text?_eq_some]
      exact ⟨(hwritable v hv).mpr fun x hx => (hfits x hx).2, rfl⟩
    exact ⟨v, _, hv, hall, hs, (htext v hv _ hs).mpr hall⟩

/-- A row without numbers becomes a document, though a duration in it becomes a number. -/
theorem serializes_mixedRow : WellFormed mixedRow ∧ Serializes mixedRow := by
  have hone : Numeral.isTooLong 1 = false := isTooLong_eq_false (n := 1) (by decide) (by decide)
  refine ⟨wellFormed_mixedRow, (serializes_iff wellFormed_mixedRow).1.mpr ⟨?_, ?_⟩⟩
  · simp [mixedRow, keys, itemKeys, entryKeys, Value.isWritable, hone]
  · simp only [mixedRow, leaves, itemLeaves, entryLeaves, List.mem_append, List.mem_ite_nil_left,
      List.mem_singleton, List.not_mem_nil, or_false]
    rintro x (⟨_, rfl⟩ | ⟨_, rfl | rfl⟩ | ⟨_, ⟨_, rfl⟩ | ⟨_, rfl⟩⟩) <;>
      refine ⟨?_, ?_⟩ <;> rintro _ ⟨⟩

def brokenRow : Nested := .dict [(.text "a", .scalar (.float .nan) rfl)]

/-- The number stays as it is, and what is written is no text of JSON. -/
theorem not_serializes_brokenRow : WellFormed brokenRow ∧ ¬ Serializes brokenRow ∧
    brokenRow.portable? = some (.object [("a", .float .nan)]) ∧
    brokenRow.document? = some "\x7b\n  \"a\": NaN\n\x7d" ∧
    ¬ IsText "\x7b\n  \"a\": NaN\n\x7d".toList := by
  have hwell : WellFormed brokenRow :=
    .dict (List.pairwise_singleton _ _) (List.forall_mem_singleton.mpr (.scalar nofun))
  have hportable : brokenRow.portable? = some (.object [("a", .float .nan)]) := by
    simp [brokenRow, Nested.portable?, Nested.portableEntries?, Portable.text?_text, Value.portable,
      Fields.update, Fields.put, Fields.has]
  have hnot : ¬ IsStrict (.object [("a", .float .nan)]) := by
    have hkeys : (Fields.keys [("a", .float .nan)]).Nodup := List.nodup_singleton "a"
    rw [isStrict_object_iff hkeys, List.forall_mem_singleton, isStrict_float_iff]
    decide
  refine ⟨hwell, ?_, hportable, ?_⟩
  · rintro ⟨v, s, hv, hstrict, -⟩
    rw [hportable] at hv
    cases hv
    exact hnot hstrict
  · have htext : Value.Json.chars (.indented 0) (.object [("a", .float .nan)]) =
        "\x7b\n  \"a\": NaN\n\x7d".toList := by decide
    constructor
    · rw [Nested.document?, hportable, Option.bind_some, text?_eq_some, htext]
      exact ⟨rfl, String.ofList_toList⟩
    · rw [← htext, isText_chars_iff (isJson_of_portable? hportable)]
      exact hnot

end QueryGateway.Proofs.Value.Documents
