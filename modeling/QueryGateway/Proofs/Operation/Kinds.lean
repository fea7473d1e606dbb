import QueryGateway.Operation.Reader
import QueryGateway.Proofs.Entries
import QueryGateway.Proofs.Plan.Rows
import QueryGateway.Proofs.Plan.Schema
import QueryGateway.Proofs.Settings.Bounds

/-!
Kinds of operations on their way from a call to a plan. The kind that a tool stands for is the kind
of the operation that is read and of the plan that is compiled; nothing in the arguments changes it.
-/

set_option autoImplicit false
set_option relaxedAutoImplicit false

namespace QueryGateway.Proofs.Operation.Kinds

open QueryGateway.Input
open QueryGateway.Operation
open QueryGateway.Plan
open QueryGateway.Proofs.Entries
open QueryGateway.Proofs.Plan.Rows
open QueryGateway.Proofs.Plan.Schema
open QueryGateway.Proofs.Settings.Bounds
open QueryGateway.Proofs.Success

theorem ofText?_text (k : OperationKind) : OperationKind.ofText? k.text = some k := by
  cases k <;> rfl

private theorem text_of_ofText? {tool : String} {k : OperationKind}
    (h : OperationKind.ofText? tool = some k) : k.text = tool := by
  simpa using List.find?_some h

/-! ## From fields to operations -/

/-- Whatever a reading gives is of some sort. -/
def Only {α : Type} (a : Checked α) (sort : α → Prop) : Prop := ∀ x, a.value? = some x → sort x

private theorem only_map {α β : Type} {f : α → β} {a : Checked α} {sort : β → Prop}
    (h : ∀ x, sort (f x)) : Only (f <$> a) sort := by
  intro y hy
  obtain ⟨x, _, rfl⟩ := value?_map.mp hy
  exact h x

private theorem only_seq {α β : Type} {f : Checked (α → β)} {a : Checked α} {sort : β → Prop}
    (h : Only f fun g => ∀ x, sort (g x)) : Only (f <*> a) sort := by
  intro y hy
  obtain ⟨g, hg, x, _, rfl⟩ := value?_seq.mp hy
  exact h g hg x

private theorem kind_ofKind (k : OperationKind) (fields : Fields) :
    Only (Operation.ofKind k fields) fun op => op.kind = k := by
  cases k with
  | read | ddl | addIndex | transaction | list => exact only_map fun _ => rfl
  | create | delete | bulkInsert | dropColumn | renameTable | dropIndex | utility =>
    exact only_seq (only_map fun _ _ => rfl)
  | update | execute | addColumn | modifyColumn =>
    exact only_seq (only_seq (only_map fun _ _ _ => rfl))
  | renameColumn => exact only_seq (only_seq (only_seq (only_map fun _ _ _ _ => rfl)))

private theorem kind_ofFields {k : OperationKind} {fields : Fields} {op : Operation}
    (htag : fields.get? "type" = some (.text k.text)) (h : Operation.ofFields fields = .ok op) :
    op.kind = k := by
  have hcheck : Operation.check fields = (Operation.ofKind k fields).within k.text := by
    rw [Operation.check, htag]
    simp only [kindOfTag?, ofText?_text]
  unfold Operation.ofFields at h
  rw [hcheck] at h
  cases hread : Operation.ofKind k fields with
  | good op' =>
    rw [hread] at h
    cases h
    exact kind_ofKind k fields op (by rw [hread]; rfl)
  | bad issues =>
    rw [hread] at h
    simp only [Input.Checked.within, bind_ok] at h
    obtain ⟨_, _, hthrow⟩ := h
    cases hthrow

/-- The name of a tool decides on the kind of the operation that a call asks for, whatever tag the
arguments carry. -/
theorem kind_ofTool {tool : String} {arguments : Value} {op : Operation}
    (h : Operation.ofTool tool arguments = .ok op) : op.kind.text = tool := by
  unfold Operation.ofTool at h
  cases hkind : OperationKind.ofText? tool with
  | none =>
    rw [hkind] at h
    cases h
  | some k =>
    rw [hkind] at h
    cases hfields : Value.Pairs.fieldsOf arguments with
    | error problem =>
      simp only [hfields] at h
      cases h
    | ok fields =>
      simp only [hfields] at h
      cases hop : Operation.ofFields (taggedFields k fields) with
      | error f =>
        simp only [hop] at h
        cases h
      | ok op' =>
        simp only [hop] at h
        cases h
        rw [kind_ofFields (get?_put _ _ _) hop]
        exact text_of_ofText? hkind

/-! ## From operations to plans -/

private theorem kind_ofList {table : Option String} {p : Plan} (h : ofList table = .ok p) :
    p.kind = .list := by
  cases table with
  | none =>
    cases h
    rfl
  | some table =>
    simp only [ofList, bind_ok, pure_ok] at h
    obtain ⟨t, _, rfl⟩ := h
    rfl

theorem kind_ofUtility {action : UtilityAction} {table : Option String} {p : Plan}
    (h : ofUtility action table = .ok p) : p.kind = .utility ∧ ∃ i, p.inquiry = some i := by
  unfold ofUtility at h
  split at h
  · simp only [bind_ok, pure_ok] at h
    obtain ⟨t, _, rfl⟩ := h
    exact ⟨rfl, _, rfl⟩
  · cases h
    exact ⟨rfl, _, rfl⟩

private theorem kind_ofDdl {statement : String} {p : Plan} (h : ofDdl statement = .ok p) :
    p.kind = .ddl := by
  obtain ⟨s, _, rfl⟩ := ofDdl_ok_iff.mp h
  rfl

private theorem kind_ofSimple {op : Operation} {p : Plan} (h : ofSimple op = .ok p) :
    p.kind = op.kind := by
  cases op with
  | read r =>
    obtain ⟨_, _, _, _, _, _, _, _, _, _, rfl⟩ := ofRead_ok h
    rfl
  | create table data =>
    obtain ⟨_, _, _, _, _, rfl⟩ := ofCreate_ok h
    rfl
  | update table data filter =>
    obtain ⟨_, _, _, _, _, _, _, _, rfl⟩ := ofUpdate_ok h
    rfl
  | delete table filter =>
    obtain ⟨_, _, _, _, _, rfl⟩ := ofDelete_ok h
    rfl
  | bulkInsert table records =>
    obtain ⟨_, _, _, _, _, _, _, _, _, rfl⟩ := ofBulkInsert_ok h
    rfl
  | execute query params allowWrite =>
    obtain ⟨_, _, _, rfl⟩ := ofExecute_ok h
    rfl
  | ddl statement => exact kind_ofDdl h
  | addColumn table column position =>
    obtain ⟨_, _, _, _, _, _, rfl⟩ := ofAddColumn_ok h
    rfl
  | dropColumn table column =>
    obtain ⟨_, _, _, _, rfl⟩ := ofDropColumn_ok h
    rfl
  | modifyColumn table column definition =>
    obtain ⟨_, _, _, _, _, _, rfl⟩ := ofModifyColumn_ok h
    rfl
  | renameColumn table old new definition =>
    obtain ⟨_, _, _, _, _, _, _, _, rfl⟩ := ofRenameColumn_ok h
    rfl
  | renameTable old new =>
    obtain ⟨_, _, _, _, _, _, rfl⟩ := ofRenameTable_ok h
    rfl
  | addIndex r =>
    obtain ⟨_, _, _, _, _, _, _, _, _, rfl⟩ := ofAddIndex_ok h
    rfl
  | dropIndex table name =>
    obtain ⟨_, _, _, _, rfl⟩ := ofDropIndex_ok h
    rfl
  | transaction steps => cases h
  | list table => exact kind_ofList h
  | utility action table => exact (kind_ofUtility h).1

theorem kind_ofOperation {op : Operation} {p : Plan} (h : ofOperation op = .ok p) :
    p.kind = op.kind := by
  cases op with
  | transaction steps =>
    obtain ⟨ss, _, rfl⟩ := ofTransaction_ok h
    rfl
  | _ => exact kind_ofSimple h

end QueryGateway.Proofs.Operation.Kinds
