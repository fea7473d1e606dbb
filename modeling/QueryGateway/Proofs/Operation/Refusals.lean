import QueryGateway.Operation.Reader
import QueryGateway.Plan.Compile
import QueryGateway.Proofs.Failure.Texts

/-!
Refusals of operations. What is read or compiled as a step of a transaction fails with a fault, with
one exception: an object whose type tag cannot be written is not told about at all.
-/

set_option autoImplicit false
set_option relaxedAutoImplicit false

namespace QueryGateway.Proofs.Operation.Refusals

open QueryGateway.Operation
open QueryGateway.Plan
open QueryGateway.Proofs.Failure.Texts
open QueryGateway.Proofs.Success
open QueryGateway.Sql

variable {α β : Type}

/-- Work that fails with nothing but faults. -/
def Refuses (x : Except Failure α) : Prop := ∀ f, x = .error f → ∃ g, f = Failure.ofFault g

private theorem refuses_ok (a : α) : Refuses (.ok a : Except Failure α) := nofun

private theorem refuses_fault (g : Fault) :
    Refuses (.error (Failure.ofFault g) : Except Failure α) := by
  intro f hf
  cases hf
  exact ⟨g, rfl⟩

private theorem refuses_invalid (message field : String) (code : Code) (hint : Option String)
    {v : Value} (h : v.isWritable = true) :
    Refuses (.error (Failure.invalid message field v code hint) : Except Failure α) := by
  obtain ⟨shown, hshown⟩ := invalid_of_writable message field code hint h
  rw [hshown]
  exact refuses_fault _

private theorem refuses_bind {x : Except Failure α} {next : α → Except Failure β} (hx : Refuses x)
    (hnext : ∀ a, Refuses (next a)) : Refuses (x >>= next) := by
  intro f hf
  cases x with
  | error g =>
    cases hf
    exact hx _ rfl
  | ok a => exact hnext a f hf

private theorem refuses_map {x : Except Failure α} (g : α → β) (hx : Refuses x) :
    Refuses (x.map g) :=
  fun f hf => hx f (map_error.mp hf)

private theorem refuses_mapM {check : α → Except Failure β} {xs : List α}
    (h : ∀ x, Refuses (check x)) :
    Refuses (xs.mapM check) := by
  intro f hf
  obtain ⟨x, _, hx⟩ := exists_of_mapM_error hf
  exact h x f hx

private theorem refuses_forM {check : α → Except Failure Unit} {xs : List α}
    (h : ∀ x, Refuses (check x)) :
    Refuses (xs.forM check) := by
  induction xs with
  | nil => exact refuses_ok ()
  | cons x xs ih => exact refuses_bind (h x) fun _ => ih

/-! ## Objects -/

private theorem kindOfTag?_of_not_writable {tag : Value} (h : tag.isWritable = false) :
    kindOfTag? tag = none := by
  cases tag with
  | text s => cases h
  | _ => rfl

abbrev tagOf (fields : Fields) : Value := (fields.get? "type").getD .null

theorem refuses_ofFields {fields : Fields} (htag : (tagOf fields).isWritable = true) :
    Refuses (ofFields fields) := by
  unfold ofFields
  split
  · exact refuses_ok _
  · simp only [text?_of_writable htag]
    exact refuses_invalid _ _ _ _ htag

theorem ofFields_of_not_writable {fields : Fields} (htag : (tagOf fields).isWritable = false) :
    ofFields fields = .error .unwritable := by
  obtain ⟨tag, hget⟩ : ∃ tag, fields.get? "type" = some tag := by
    cases hget : fields.get? "type" with
    | none =>
      rw [tagOf, hget] at htag
      cases htag
    | some tag => exact ⟨tag, rfl⟩
  have hbad : ∃ issues, check fields = .bad issues := by
    rw [tagOf, hget] at htag
    rw [check, hget]
    have hkind : kindOfTag? tag = none := kindOfTag?_of_not_writable htag
    simp only [hkind]
    exact ⟨_, rfl⟩
  obtain ⟨issues, hbad⟩ := hbad
  rw [ofFields, hbad]
  simp only [text?_of_not_writable htag]
  rfl

/-! ## Operations that are steps -/

private theorem refuses_name (kind : NameKind) (s : String) : Refuses (Name.ofText kind s) := by
  unfold Name.ofText Name.ofValue
  simp only
  split
  · exact refuses_ok _
  · unfold Name.refusal
    simp only
    split
    · exact refuses_invalid _ _ _ _ rfl
    · exact refuses_invalid _ _ _ _ rfl

private theorem refuses_entry (entry : String × Value) : Refuses (columnOfEntry entry) :=
  refuses_bind (refuses_name _ _) fun _ => by
    split
    · exact refuses_ok _
    · exact refuses_invalid _ _ _ _ rfl

private theorem refuses_columns (field : String) (row : Fields) :
    Refuses (columnsOf field row) := by
  unfold columnsOf
  split
  · exact refuses_invalid _ _ _ _ rfl
  · exact refuses_mapM refuses_entry

private theorem refuses_value (column : String) (v : Value) :
    Refuses (Filter.checkValue column v) := by
  unfold Filter.checkValue
  split
  · exact refuses_invalid _ _ _ _ rfl
  · split
    · exact refuses_invalid _ _ _ _ rfl
    · exact refuses_ok _

private theorem refuses_among (column : String) (vs : List Value) :
    Refuses (Filter.testAmong column vs) := by
  unfold Filter.testAmong
  split
  · exact refuses_invalid _ _ _ _ rfl
  · exact refuses_bind (refuses_forM (refuses_value column)) fun _ => refuses_ok _

private theorem refuses_test (column : String) (v : Value) : Refuses (Filter.testOf column v) := by
  unfold Filter.testOf
  split
  · exact refuses_ok _
  · exact refuses_among _ _
  · exact refuses_among _ _
  · exact refuses_bind (refuses_value _ _) fun _ => refuses_ok _

private theorem refuses_filter (fields : Fields) : Refuses (Filter.ofFields fields) :=
  refuses_mapM fun _ => refuses_bind (refuses_name _ _) fun _ =>
    refuses_bind (refuses_test _ _) fun _ => refuses_ok _

private theorem refuses_requiredFilter (verb : String) (filter : Option Fields) :
    Refuses (requiredFilter verb filter) := by
  unfold requiredFilter
  split
  · exact refuses_filter _
  · exact refuses_invalid _ _ _ _ rfl

private theorem refuses_records (first : Fields) (place : Nat) (rows : List Fields) :
    Refuses (checkRecords first place rows) := by
  induction rows generalizing place with
  | nil => exact refuses_ok _
  | cons row rows ih =>
    refine refuses_bind ?_ fun _ => ih _
    unfold checkRecord
    simp only
    split
    · exact refuses_invalid _ _ _ _ rfl
    · split
      · exact refuses_bind (refuses_columns _ _) fun _ => refuses_ok _
      · exact refuses_ok _

private theorem refuses_query (allowWrite : Bool) (query : String) :
    Refuses (Screening.query allowWrite (.text query)) := by
  unfold Screening.query
  simp only
  split
  · exact refuses_invalid _ _ _ _ rfl
  · split
    · exact refuses_invalid _ _ _ _ rfl
    · split
      · exact refuses_invalid _ _ _ _ rfl
      · exact refuses_ok _

private theorem refuses_count (s : List Char) : Refuses (Placeholder.count s) := by
  refine refuses_map _ ?_
  unfold Placeholder.positions
  split
  · exact refuses_ok _
  · exact refuses_invalid _ _ _ _ rfl

theorem refuses_ofSimple {op : Operation} (h : op.kind.isStep = true) : Refuses (ofSimple op) := by
  cases op with
  | create table data =>
    exact refuses_bind (refuses_name _ _) fun _ =>
      refuses_bind (refuses_columns _ _) fun _ => refuses_ok _
  | update table data filter =>
    exact refuses_bind (refuses_name _ _) fun _ => refuses_bind (refuses_columns _ _) fun _ =>
      refuses_bind (refuses_requiredFilter _ _) fun _ => refuses_ok _
  | delete table filter =>
    exact refuses_bind (refuses_name _ _) fun _ =>
      refuses_bind (refuses_requiredFilter _ _) fun _ => refuses_ok _
  | bulkInsert table records =>
    refine refuses_bind (refuses_name _ _) fun _ => ?_
    cases records with
    | nil => exact refuses_invalid _ _ _ _ rfl
    | cons first rest =>
      exact refuses_bind (refuses_columns _ _) fun _ =>
        refuses_bind (refuses_records _ _ _) fun _ => refuses_ok _
  | execute query params allowWrite =>
    refine refuses_bind (refuses_query _ _) fun _ => refuses_bind (refuses_count _) fun _ => ?_
    simp only
    split
    · exact refuses_bind (refuses_invalid _ _ _ _ rfl) fun _ => refuses_ok _
    · exact refuses_ok _
  | _ => cases h

end QueryGateway.Proofs.Operation.Refusals
