import QueryGateway.Proofs.Entries
import QueryGateway.Proofs.Success
import QueryGateway.Tool.Dispatcher
import QueryGateway.Value.Nested

/-!
Values made portable. What comes out is of the kinds that JSON has and stays as it is when it is
made portable again; lists keep their items, and objects with texts for keys keep their entries, in
order and at every depth.
-/

set_option autoImplicit false
set_option relaxedAutoImplicit false

namespace QueryGateway.Proofs.Value.Portable

/-!
## Induction

Induction over values: what holds of single values and of a container whenever it holds of all that
the container holds, holds of every value.
-/

section Induction

open QueryGateway

theorem value_induction {motive : Value → Prop} (scalar : ∀ v, v.isScalar = true → motive v)
    (list : ∀ vs, (∀ v ∈ vs, motive v) → motive (.list vs))
    (tuple : ∀ vs, (∀ v ∈ vs, motive v) → motive (.tuple vs))
    (object : ∀ es : Fields, (∀ e ∈ es, motive e.2) → motive (.object es)) (v : Value) :
    motive v :=
  @Value.rec motive (fun vs => ∀ v ∈ vs, motive v) (fun es => ∀ e ∈ es, motive e.2)
    (fun e => motive e.2) (scalar _ rfl) (fun _ => scalar _ rfl) (fun _ => scalar _ rfl)
    (fun _ => scalar _ rfl) (fun _ => scalar _ rfl) (fun _ => scalar _ rfl)
    (fun _ _ => scalar _ rfl) (fun _ => scalar _ rfl) (fun _ => scalar _ rfl)
    (fun _ => scalar _ rfl) (fun _ _ _ => scalar _ rfl) (fun _ => scalar _ rfl) list tuple object
    (List.forall_mem_nil _) (fun _ _ hv hvs => List.forall_mem_cons.mpr ⟨hv, hvs⟩)
    (List.forall_mem_nil _) (fun _ _ he hes => List.forall_mem_cons.mpr ⟨he, hes⟩)
    (fun _ _ hv => hv) v

theorem nested_induction {motive : Nested → Prop}
    (scalar : ∀ v single, motive (.scalar v single))
    (list : ∀ ns, (∀ n ∈ ns, motive n) → motive (.list ns))
    (tuple : ∀ ns, (∀ n ∈ ns, motive n) → motive (.tuple ns))
    (dict : ∀ es : List (Value × Nested), (∀ e ∈ es, motive e.2) → motive (.dict es)) (n : Nested) :
    motive n :=
  @Nested.rec motive (fun ns => ∀ n ∈ ns, motive n) (fun es => ∀ e ∈ es, motive e.2)
    (fun e => motive e.2) scalar list tuple dict
    (List.forall_mem_nil _) (fun _ _ hn hns => List.forall_mem_cons.mpr ⟨hn, hns⟩)
    (List.forall_mem_nil _) (fun _ _ he hes => List.forall_mem_cons.mpr ⟨he, hes⟩)
    (fun _ _ hn => hn) n

end Induction

open QueryGateway
open QueryGateway.Number (Binary64)
open QueryGateway.Tool (Answer)
open QueryGateway.Value.Display (text?)
open QueryGateway.Proofs.Entries
open QueryGateway.Proofs.Success (map_eq_of_forall₂)

/-! ## Portable values -/

/-- A value of the kinds that JSON has, its numbers of some sort and no key twice in an object. -/
inductive IsJson (sort : Binary64 → Prop) : Value → Prop
  | null : IsJson sort .null
  | bool (b : Bool) : IsJson sort (.bool b)
  | int (i : Int) : IsJson sort (.int i)
  | float {x : Binary64} : sort x → IsJson sort (.float x)
  | text (s : String) : IsJson sort (.text s)
  | list {vs : List Value} : (∀ v ∈ vs, IsJson sort v) → IsJson sort (.list vs)
  | object {es : Fields} : es.keys.Nodup → (∀ e ∈ es, IsJson sort e.2) → IsJson sort (.object es)

private theorem portableItems_eq (vs : List Value) :
    Value.portableItems vs = vs.map Value.portable := by
  induction vs with
  | nil => rfl
  | cons v vs ih => rw [Value.portableItems, ih, List.map_cons]

private theorem portableEntries_eq (es : Fields) :
    Value.portableEntries es = es.map fun e => (e.1, e.2.portable) := by
  induction es with
  | nil => rfl
  | cons e es ih =>
    obtain ⟨k, v⟩ := e
    rw [Value.portableEntries, ih, List.map_cons]

private theorem portable_of_isScalar {v : Value} (h : v.isScalar = true) :
    IsJson (fun _ => True) v.portable := by
  cases v with
  | null => exact .null
  | bool b => exact .bool b
  | int i => exact .int i
  | float x => exact .float trivial
  | duration u => exact .float trivial
  | list vs => cases h
  | tuple vs => cases h
  | object es => cases h
  | _ => exact .text _

private theorem portable_scalar_again {v : Value} (h : v.isScalar = true) :
    v.portable.portable = v.portable := by
  cases v with
  | list vs => cases h
  | tuple vs => cases h
  | object es => cases h
  | _ => rfl

private theorem portable_portable (v : Value) : v.portable.portable = v.portable := by
  have hitems : ∀ vs : List Value, (∀ v ∈ vs, v.portable.portable = v.portable) →
      Value.portableItems (Value.portableItems vs) = Value.portableItems vs := by
    intro vs h
    rw [portableItems_eq, portableItems_eq, List.map_map]
    exact List.map_congr_left h
  induction v using value_induction with
  | scalar v h => exact portable_scalar_again h
  | list vs ih => simp only [Value.portable, hitems vs ih]
  | tuple vs ih => simp only [Value.portable, hitems vs ih]
  | object es ih =>
    have hentries :
        Value.portableEntries (Value.portableEntries es) = Value.portableEntries es := by
      rw [portableEntries_eq, portableEntries_eq, List.map_map]
      exact List.map_congr_left fun e he => congrArg (e.1, ·) (ih e he)
    simp only [Value.portable, hentries]

/-! ## Items and entries -/

theorem portableItems?_eq_some {ns : List Nested} {vs : List Value} :
    Nested.portableItems? ns = some vs ↔
      List.Forall₂ (fun n v => n.portable? = some v) ns vs := by
  induction ns generalizing vs with
  | nil => simp [Nested.portableItems?, eq_comm]
  | cons n ns ih =>
    cases vs with
    | nil => simp [Nested.portableItems?, Option.bind_eq_some_iff]
    | cons v vs => simp [Nested.portableItems?, Option.bind_eq_some_iff, ← ih]

theorem portableEntries?_eq_some {es : List (Value × Nested)} {fields : Fields} :
    Nested.portableEntries? es = some fields ↔ List.Forall₂
      (fun e f => text? e.1 = some f.1 ∧ e.2.portable? = some f.2) es fields := by
  induction es generalizing fields with
  | nil => simp [Nested.portableEntries?, eq_comm]
  | cons e es ih =>
    obtain ⟨k, n⟩ := e
    cases fields with
    | nil => simp [Nested.portableEntries?, Option.bind_eq_some_iff]
    | cons f fields =>
      obtain ⟨key, v⟩ := f
      simp [Nested.portableEntries?, Option.bind_eq_some_iff, ← ih, and_assoc]

private theorem forall₂_mem_right {α β : Type} {r : α → β → Prop} {as : List α} {bs : List β}
    (h : List.Forall₂ r as bs) : ∀ b ∈ bs, ∃ a ∈ as, r a b := by
  induction h with
  | nil => simp
  | cons hab _ ih =>
    refine List.forall_mem_cons.mpr ⟨⟨_, List.mem_cons_self, hab⟩, fun b hb => ?_⟩
    obtain ⟨a, ha, hr⟩ := ih b hb
    exact ⟨a, List.mem_cons_of_mem _ ha, hr⟩

private theorem isJson_items {ns : List Nested}
    (h : ∀ n ∈ ns, ∀ v, n.portable? = some v → IsJson (fun _ => True) v) {v : Value}
    (hv : (Nested.portableItems? ns).map Value.list = some v) : IsJson (fun _ => True) v := by
  obtain ⟨vs, hvs, rfl⟩ := Option.map_eq_some_iff.mp hv
  refine .list fun v hmem => ?_
  obtain ⟨n, hn, hportable⟩ := forall₂_mem_right (portableItems?_eq_some.mp hvs) v hmem
  exact h n hn v hportable

theorem isJson_of_portable? {n : Nested} {v : Value} (h : n.portable? = some v) :
    IsJson (fun _ => True) v := by
  induction n using nested_induction generalizing v with
  | scalar w single =>
    cases h
    exact portable_of_isScalar single
  | list ns ih => exact isJson_items (fun n hn v hv => ih n hn hv) h
  | tuple ns ih => exact isJson_items (fun n hn v hv => ih n hn hv) h
  | dict es ih =>
    obtain ⟨fields, hfields, rfl⟩ := Option.map_eq_some_iff.mp h
    refine .object (nodup_update List.nodup_nil) fun f hf => ?_
    have hmem : f ∈ fields := by
      rcases mem_update.mp hf with hlast | ⟨hnone, _⟩
      · exact mem_of_mem_lasting hlast
      · cases hnone
    obtain ⟨e, he, _, hportable⟩ := forall₂_mem_right (portableEntries?_eq_some.mp hfields) f hmem
    exact ih e he hportable

/-! ## Once and twice -/

private theorem ofValues_eq (vs : List Value) : Nested.ofValues vs = vs.map Nested.ofValue := by
  induction vs with
  | nil => rfl
  | cons v vs ih => rw [Nested.ofValues, ih, List.map_cons]

private theorem ofFields_eq (es : Fields) :
    Nested.ofFields es = es.map fun e => (.text e.1, .ofValue e.2) := by
  induction es with
  | nil => rfl
  | cons e es ih =>
    obtain ⟨k, v⟩ := e
    rw [Nested.ofFields, ih, List.map_cons]

theorem text?_text (s : String) : text? (.text s) = some s := by
  change some (String.ofList s.toList) = some s
  rw [String.ofList_toList]

/-- A value in which no object has a key twice. -/
inductive Keyed : Value → Prop
  | scalar {v : Value} : v.isScalar = true → Keyed v
  | list {vs : List Value} : (∀ v ∈ vs, Keyed v) → Keyed (.list vs)
  | tuple {vs : List Value} : (∀ v ∈ vs, Keyed v) → Keyed (.tuple vs)
  | object {es : Fields} : es.keys.Nodup → (∀ e ∈ es, Keyed e.2) → Keyed (.object es)

private theorem portableItems?_ofValues {vs : List Value}
    (h : ∀ v ∈ vs, (Nested.ofValue v).portable? = some v.portable) :
    Nested.portableItems? (Nested.ofValues vs) = some (Value.portableItems vs) := by
  rw [portableItems?_eq_some, ofValues_eq, portableItems_eq, List.forall₂_map_left_iff,
    List.forall₂_map_right_iff, List.forall₂_same]
  exact h

theorem portable?_ofValue {v : Value} (h : Keyed v) :
    (Nested.ofValue v).portable? = some v.portable := by
  induction h with
  | @scalar v hscalar =>
    cases v with
    | list vs => cases hscalar
    | tuple vs => cases hscalar
    | object es => cases hscalar
    | _ => rfl
  | list _ ih =>
    rw [Nested.ofValue, Nested.portable?, portableItems?_ofValues ih]
    rfl
  | tuple _ ih =>
    rw [Nested.ofValue, Nested.portable?, portableItems?_ofValues ih]
    rfl
  | @object es hnodup _ ih =>
    have hentries : Nested.portableEntries? (Nested.ofFields es) =
        some (Value.portableEntries es) := by
      rw [portableEntries?_eq_some, ofFields_eq, portableEntries_eq, List.forall₂_map_left_iff,
        List.forall₂_map_right_iff, List.forall₂_same]
      exact fun e he => ⟨text?_text e.1, ih e he⟩
    have hkeys : (Fields.keys ([] ++ Value.portableEntries es)).Nodup := by
      rw [List.nil_append, portableEntries_eq, Fields.keys, List.map_map]
      exact hnodup
    rw [Nested.ofValue, Nested.portable?, hentries, Option.map_some, update_of_nodup hkeys]
    rfl

private theorem keyed_of_isJson {sort : Binary64 → Prop} {v : Value} (h : IsJson sort v) :
    Keyed v := by
  induction h with
  | list _ ih => exact .list ih
  | object hnodup _ ih => exact .object hnodup ih
  | _ => exact .scalar rfl

private theorem portable_of_isJson {sort : Binary64 → Prop} {v : Value} (h : IsJson sort v) :
    v.portable = v := by
  induction h with
  | @list vs _ ih =>
    have hitems : Value.portableItems vs = vs := by
      rw [portableItems_eq]
      exact (List.map_congr_left ih).trans (List.map_id vs)
    rw [Value.portable, hitems]
  | @object es _ _ ih =>
    have hentries : Value.portableEntries es = es := by
      rw [portableEntries_eq]
      exact (List.map_congr_left fun e he => congrArg (e.1, ·) (ih e he)).trans (List.map_id es)
    rw [Value.portable, hentries]
  | _ => rfl

theorem portable?_ofValue_of_isJson {sort : Binary64 → Prop} {v : Value} (h : IsJson sort v) :
    (Nested.ofValue v).portable? = some v := by
  rw [portable?_ofValue (keyed_of_isJson h), portable_of_isJson h]

/-! ## What is kept -/

/-- The lengths that durations have: at most nine digits for the days. -/
def IsSpan (u : Int) : Prop :=
  -999999999 * Value.Calendar.dayLength ≤ u ∧ u < 1000000000 * Value.Calendar.dayLength

/-- What is sure of values from drivers and callers: no key stands twice in an object, and durations
have the lengths that they may have. -/
inductive WellFormed : Nested → Prop
  | scalar {v : Value} {single : v.isScalar = true} : (∀ u, v = .duration u → IsSpan u) →
      WellFormed (.scalar v single)
  | list {ns : List Nested} : (∀ n ∈ ns, WellFormed n) → WellFormed (.list ns)
  | tuple {ns : List Nested} : (∀ n ∈ ns, WellFormed n) → WellFormed (.tuple ns)
  | dict {es : List (Value × Nested)} :
      es.Pairwise (fun a b => Value.Key.same a.1 b.1 = false) → (∀ e ∈ es, WellFormed e.2) →
      WellFormed (.dict es)

/-- Whether all keys of entries are texts. -/
def Named (es : List (Value × Nested)) : Prop := ∀ e ∈ es, ∃ s, e.1 = .text s

/-- A value that another one was made into. Lists keep their items and objects with texts for keys
keep their entries, all in order; other keys become their texts, and of entries with the same text
the last one counts. -/
inductive Mirrors : Nested → Value → Prop
  | scalar (v : Value) (single : v.isScalar = true) : Mirrors (.scalar v single) v.portable
  | list {ns : List Nested} {vs : List Value} : ns.length = vs.length →
      (∀ p ∈ ns.zip vs, Mirrors p.1 p.2) → Mirrors (.list ns) (.list vs)
  | tuple {ns : List Nested} {vs : List Value} : ns.length = vs.length →
      (∀ p ∈ ns.zip vs, Mirrors p.1 p.2) → Mirrors (.tuple ns) (.list vs)
  | named {es : List (Value × Nested)} {fields : Fields} :
      es.map Prod.fst = fields.map (fun f => .text f.1) →
      (∀ p ∈ es.zip fields, Mirrors p.1.2 p.2.2) → Mirrors (.dict es) (.object fields)
  | renamed {es : List (Value × Nested)} {fields : Fields} : ¬ Named es →
      es.map (fun e => text? e.1) = fields.map (fun f => some f.1) →
      (∀ p ∈ es.zip fields, Mirrors p.1.2 p.2.2) →
      Mirrors (.dict es) (.object (Fields.update [] fields))

private theorem zip_of_forall₂ {α β : Type} {r : α → β → Prop} {as : List α} {bs : List β}
    (h : List.Forall₂ r as bs) : ∀ p ∈ as.zip bs, p.1 ∈ as ∧ r p.1 p.2 := by
  intro p hp
  exact ⟨(List.of_mem_zip hp).1, (List.forall₂_iff_zip.mp h).2 hp⟩

private theorem mirrors_items {ns : List Nested} {vs : List Value}
    (h : List.Forall₂ (fun n v => n.portable? = some v) ns vs)
    (hmirrors : ∀ n ∈ ns, ∀ v, n.portable? = some v → Mirrors n v) :
    ns.length = vs.length ∧ ∀ p ∈ ns.zip vs, Mirrors p.1 p.2 := by
  refine ⟨h.length_eq, fun p hp => ?_⟩
  obtain ⟨hmem, hportable⟩ := zip_of_forall₂ h p hp
  exact hmirrors p.1 hmem p.2 hportable

section

variable {es : List (Value × Nested)} {fields : Fields}
  (h : List.Forall₂ (fun e f => text? e.1 = some f.1 ∧ e.2.portable? = some f.2) es fields)
include h

private theorem keys_of_named (hnamed : Named es) :
    es.map Prod.fst = fields.map (fun f => .text f.1) := by
  refine map_eq_of_forall₂ h fun e he f hf => ?_
  obtain ⟨s, hs⟩ := hnamed e he
  obtain ⟨htext, _⟩ := hf
  rw [hs, text?_text] at htext
  rw [hs, Option.some.inj htext]

private theorem nodup_of_named (hdistinct : es.Pairwise fun a b => Value.Key.same a.1 b.1 = false)
    (hnamed : Named es) : fields.keys.Nodup := by
  have hpairwise : (fields.map fun f => Value.text f.1).Pairwise
      fun a b => Value.Key.same a b = false := by
    rw [← keys_of_named h hnamed]
    exact List.pairwise_map.mpr hdistinct
  rw [Fields.keys, List.Nodup, List.pairwise_map]
  refine (List.pairwise_map.mp hpairwise).imp fun {a b} hne heq => ?_
  rw [heq] at hne
  simp [Value.Key.same] at hne

end

private theorem mirrors_of_portable? {n : Nested} {v : Value} (hn : WellFormed n)
    (h : n.portable? = some v) : Mirrors n v := by
  induction hn generalizing v with
  | @scalar w single _ =>
    cases h
    exact .scalar w single
  | list _ ih =>
    obtain ⟨vs, hvs, rfl⟩ := Option.map_eq_some_iff.mp h
    obtain ⟨hlength, hmirrors⟩ :=
      mirrors_items (portableItems?_eq_some.mp hvs) fun n hn v => ih n hn
    exact .list hlength hmirrors
  | tuple _ ih =>
    obtain ⟨vs, hvs, rfl⟩ := Option.map_eq_some_iff.mp h
    obtain ⟨hlength, hmirrors⟩ :=
      mirrors_items (portableItems?_eq_some.mp hvs) fun n hn v => ih n hn
    exact .tuple hlength hmirrors
  | @dict es hdistinct _ ih =>
    obtain ⟨fields, hfields, rfl⟩ := Option.map_eq_some_iff.mp h
    have hall := portableEntries?_eq_some.mp hfields
    have hmirrors : ∀ p ∈ es.zip fields, Mirrors p.1.2 p.2.2 := by
      intro p hp
      obtain ⟨hmem, _, hportable⟩ := zip_of_forall₂ hall p hp
      exact ih p.1 hmem hportable
    by_cases hnamed : Named es
    · -- Different texts stay different, so nothing is put in twice.
      have hnodup : (Fields.keys ([] ++ fields)).Nodup := nodup_of_named hall hdistinct hnamed
      rw [update_of_nodup hnodup]
      exact .named (keys_of_named hall hnamed) hmirrors
    · refine .renamed hnamed ?_ hmirrors
      exact map_eq_of_forall₂ hall fun e _ f hf => hf.1

/-! ## What can be made portable -/

mutual

def keys : Nested → List Value
  | .scalar _ _ => []
  | .list ns | .tuple ns => itemKeys ns
  | .dict es => entryKeys es

def itemKeys : List Nested → List Value
  | [] => []
  | n :: ns => keys n ++ itemKeys ns

def entryKeys : List (Value × Nested) → List Value
  | [] => []
  | (k, n) :: es => k :: keys n ++ entryKeys es

end

private theorem isSome_text? {k : Value} : (text? k).isSome = k.isWritable := by
  rw [text?]
  cases k.isWritable <;> rfl

private theorem isSome_portableItems? {ns : List Nested}
    (h : ∀ n ∈ ns, n.portable?.isSome = true ↔ ∀ k ∈ keys n, k.isWritable = true) :
    (Nested.portableItems? ns).isSome = true ↔ ∀ k ∈ itemKeys ns, k.isWritable = true := by
  induction ns with
  | nil => simp [Nested.portableItems?, itemKeys]
  | cons n ns ih =>
    obtain ⟨hn, hns⟩ := List.forall_mem_cons.mp h
    rw [itemKeys, List.forall_mem_append, ← hn, ← ih hns]
    cases hfirst : n.portable? <;> cases hrest : Nested.portableItems? ns <;>
      simp [Nested.portableItems?, hfirst, hrest]

private theorem isSome_portableEntries? {es : List (Value × Nested)}
    (h : ∀ e ∈ es, e.2.portable?.isSome = true ↔ ∀ k ∈ keys e.2, k.isWritable = true) :
    (Nested.portableEntries? es).isSome = true ↔ ∀ k ∈ entryKeys es, k.isWritable = true := by
  induction es with
  | nil => simp [Nested.portableEntries?, entryKeys]
  | cons e es ih =>
    obtain ⟨k, n⟩ := e
    obtain ⟨hn, hes⟩ := List.forall_mem_cons.mp h
    rw [entryKeys, List.cons_append, List.forall_mem_cons, List.forall_mem_append, ← hn, ← ih hes,
      ← isSome_text?]
    cases hkey : text? k <;> cases hfirst : n.portable? <;>
      cases hrest : Nested.portableEntries? es <;>
      simp [Nested.portableEntries?, hkey, hfirst, hrest]

theorem isSome_portable? (n : Nested) :
    n.portable?.isSome = true ↔ ∀ k ∈ keys n, k.isWritable = true := by
  induction n using nested_induction with
  | scalar v single => simp [Nested.portable?, keys]
  | list ns ih =>
    rw [Nested.portable?, Option.isSome_map, keys]
    exact isSome_portableItems? ih
  | tuple ns ih =>
    rw [Nested.portable?, Option.isSome_map, keys]
    exact isSome_portableItems? ih
  | dict es ih =>
    rw [Nested.portable?, Option.isSome_map, keys]
    exact isSome_portableEntries? ih

/-! ## Envelopes -/

private theorem document?_ofResult (now : String) (op : Operation) (r : Engine.Result) :
    Value.Json.document? (.object (Tool.Envelope.ofResult now op r)) =
      Value.Json.text? (.object (Tool.Envelope.ofResult now op r)) := by
  have hagain :=
    portable_portable (.object (("success", .bool true) :: Tool.Envelope.body now op r))
  have hsame : (Value.object (Tool.Envelope.ofResult now op r)).portable =
      .object (Tool.Envelope.ofResult now op r) := hagain
  rw [Value.Json.document?, hsame]

private theorem text_ofEnvelope_ofResult {now : String} {op : Operation} {r : Engine.Result}
    {s : String} (h : Value.Json.text? (.object (Tool.Envelope.ofResult now op r)) = some s) :
    (Answer.ofEnvelope (Tool.Envelope.ofResult now op r)).text = s := by
  rw [Answer.ofEnvelope, document?_ofResult, h]
  rfl

/-- Making a value portable twice is making it portable once, and loses nothing: it succeeds
wherever the keys can be written, and keeps the items of lists and the entries of objects with texts
for keys, in order and at every depth. So an envelope is written as it was when it was made. -/
theorem portable?_again {n : Nested} (hn : WellFormed n) :
    (n.portable?.bind fun v => (Nested.ofValue v).portable?) = n.portable? ∧
      (n.portable?.isSome = true ↔ ∀ k ∈ keys n, k.isWritable = true) ∧
      (∀ v, n.portable? = some v → Mirrors n v) ∧
      ∀ now op r,
        Value.Json.document? (.object (Tool.Envelope.ofResult now op r)) =
            Value.Json.text? (.object (Tool.Envelope.ofResult now op r)) ∧
          ∀ s, Value.Json.text? (.object (Tool.Envelope.ofResult now op r)) = some s →
            (Answer.ofEnvelope (Tool.Envelope.ofResult now op r)).text = s := by
  refine ⟨?_, isSome_portable? n, fun v hv => mirrors_of_portable? hn hv,
    fun now op r => ⟨document?_ofResult now op r, fun _ => text_ofEnvelope_ofResult⟩⟩
  cases hv : n.portable? with
  | none => rfl
  | some v => exact portable?_ofValue_of_isJson (isJson_of_portable? hv)

/-- A row with a price, a tuple of days and an object whose keys are a number and its text. -/
def mixedRow : Nested :=
  .dict
    [(.text "price", .scalar (.decimal (.finite false 150 (-2))) rfl),
     (.text "days", .tuple [.scalar (.day ⟨2024, 1, 2⟩) rfl, .scalar (.duration 60000000) rfl]),
     (.text "shares", .dict
        [(.int 1, .scalar (.bytes .view [104, 105]) rfl), (.text "1", .scalar (.bool true) rfl)])]

theorem wellFormed_mixedRow : WellFormed mixedRow := by
  have hplain : ∀ {v : Value} {single : v.isScalar = true}, (∀ u, v ≠ .duration u) →
      WellFormed (.scalar v single) := fun h => .scalar fun u hu => absurd hu (h u)
  have hdays : WellFormed (.tuple
      [.scalar (.day ⟨2024, 1, 2⟩) rfl, .scalar (.duration 60000000) rfl]) := by
    refine .tuple (List.forall_mem_cons.mpr ⟨hplain nofun, List.forall_mem_singleton.mpr ?_⟩)
    refine .scalar fun u hu => ?_
    cases hu
    exact ⟨by decide, by decide⟩
  have hshares : WellFormed (.dict
      [(.int 1, .scalar (.bytes .view [104, 105]) rfl), (.text "1", .scalar (.bool true) rfl)]) :=
    .dict (by decide)
      (List.forall_mem_cons.mpr ⟨hplain nofun, List.forall_mem_singleton.mpr (hplain nofun)⟩)
  refine .dict (by decide) ?_
  exact List.forall_mem_cons.mpr ⟨hplain nofun, List.forall_mem_cons.mpr
    ⟨hdays, List.forall_mem_singleton.mpr hshares⟩⟩

theorem portable?_again_mixedRow : WellFormed mixedRow ∧
    (mixedRow.portable?.bind fun v => (Nested.ofValue v).portable?) = mixedRow.portable? ∧
      (mixedRow.portable?.isSome = true ↔ ∀ k ∈ keys mixedRow, k.isWritable = true) ∧
      (∀ v, mixedRow.portable? = some v → Mirrors mixedRow v) ∧
      ∀ now op r,
        Value.Json.document? (.object (Tool.Envelope.ofResult now op r)) =
            Value.Json.text? (.object (Tool.Envelope.ofResult now op r)) ∧
          ∀ s, Value.Json.text? (.object (Tool.Envelope.ofResult now op r)) = some s →
            (Answer.ofEnvelope (Tool.Envelope.ofResult now op r)).text = s :=
  ⟨wellFormed_mixedRow, portable?_again wellFormed_mixedRow⟩

end QueryGateway.Proofs.Value.Portable
