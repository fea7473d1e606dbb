import QueryGateway.Plan.Compile
import QueryGateway.Proofs.Plan.Schema
import QueryGateway.Proofs.Sql.Names

/-!
Protected schemas and the operations that change a schema. The tables of such an operation are
guarded before anything else of it is looked at, so a protected one is reported whatever else is
wrong, and an operation that compiles leaves the protected schemas alone.
-/

set_option autoImplicit false
set_option relaxedAutoImplicit false

namespace QueryGateway.Proofs.Plan.ProtectedSchemas

open QueryGateway.Sql
open QueryGateway.Plan
open QueryGateway.Proofs.Plan.Schema
open QueryGateway.Proofs.Sql.Names

/-- The tables that an operation on the schema alters; one that is renamed has two names. -/
def altered : Operation → List String
  | .addColumn table _ _ | .dropColumn table _ | .modifyColumn table _ _
  | .renameColumn table _ _ _ | .dropIndex table _ => [table]
  | .renameTable old new => [old, new]
  | .addIndex r => [r.table]
  | _ => []

variable {op : Operation} {plan : Plan} {tables : List String} {table : String} {f : Failure}

/-! ## Guards -/

private theorem code_of_guardTable (h : Protected.guardTable table = .error f) :
    ∃ g, f = .ofFault g ∧ g.code = .protectedSchema := by
  unfold Protected.guardTable at h
  split at h
  · cases h
    exact ⟨_, rfl, rfl⟩
  · cases h

private theorem forM_guardTable_error (h : ∃ t ∈ tables, Protected.targets t.toList = true) :
    ∃ g, tables.forM Protected.guardTable = .error (.ofFault g) ∧
      g.code = .protectedSchema := by
  induction tables with
  | nil =>
    obtain ⟨t, ht, _⟩ := h
    cases ht
  | cons t tables ih =>
    obtain ⟨t', ht', htargets⟩ := h
    change ∃ g, (Protected.guardTable t >>= fun _ => tables.forM Protected.guardTable) =
      .error (.ofFault g) ∧ _
    cases hguard : Protected.guardTable t with
    | error f =>
      obtain ⟨g, rfl, hcode⟩ := code_of_guardTable hguard
      exact ⟨g, rfl, hcode⟩
    | ok _ =>
      rcases List.mem_cons.mp ht' with rfl | hlater
      · rw [guardTable_ok.mp hguard] at htargets
        cases htargets
      · exact ih ⟨t', hlater, htargets⟩

private theorem openTable_bind (table : String) (next : Name → Except Failure Plan) :
    openTable table >>= next =
      [table].forM Protected.guardTable >>= fun _ => Name.ofText .table table >>= next := by
  change (Protected.guardTable table >>= fun _ => Name.ofText .table table) >>= next =
    (Protected.guardTable table >>= fun _ => pure ()) >>= _
  cases Protected.guardTable table <;> rfl

private theorem guardTable_pair (old new : String) (rest : Except Failure Plan) :
    (Protected.guardTable old >>= fun _ => Protected.guardTable new >>= fun _ => rest) =
      [old, new].forM Protected.guardTable >>= fun _ => rest := by
  change _ = (Protected.guardTable old >>= fun _ =>
    Protected.guardTable new >>= fun _ => pure ()) >>= _
  cases Protected.guardTable old with
  | error f => rfl
  | ok _ => cases Protected.guardTable new <;> rfl

private theorem guards_first (op : Operation) : ∃ rest : Except Failure Plan,
    Plan.ofOperation op = (altered op).forM Protected.guardTable >>= fun _ => rest := by
  cases op with
  | addColumn table column position => exact ⟨_, openTable_bind table _⟩
  | dropColumn table column => exact ⟨_, openTable_bind table _⟩
  | modifyColumn table column definition => exact ⟨_, openTable_bind table _⟩
  | renameColumn table old new definition => exact ⟨_, openTable_bind table _⟩
  | renameTable old new => exact ⟨_, guardTable_pair old new _⟩
  | addIndex r => exact ⟨_, openTable_bind r.table _⟩
  | dropIndex table name => exact ⟨_, openTable_bind table _⟩
  | _ => exact ⟨_, rfl⟩

private theorem not_targets_of_compiles (h : Plan.ofOperation op = .ok plan) :
    ∀ t ∈ altered op, Protected.targets t.toList = false := by
  intro t ht
  obtain ⟨rest, hguards⟩ := guards_first op
  by_contra htargets
  obtain ⟨f, hforM, _⟩ := forM_guardTable_error ⟨t, ht, Bool.of_not_eq_false htargets⟩
  rw [hguards, hforM] at h
  cases h

/-! ## Tables -/

private theorem name_of_openTable {t : Name} (h : openTable table = .ok t) :
    (∃ ns : List Name, ns.map Name.text = [table]) ∧ some t.text = some table := by
  have htable := (openTable_ok h).1
  exact ⟨⟨[t], congrArg (fun s => [s]) htable⟩, congrArg some htable⟩

/-- The tables of a schema change that compiles are written as plain names, and the plan is about
the first of them. -/
private theorem names_of_compiles (h : Plan.ofOperation op = .ok plan) (hop : altered op ≠ []) :
    (∃ ns : List Name, ns.map Name.text = altered op) ∧ plan.table = (altered op).head? := by
  cases op with
  | addColumn table column position =>
    obtain ⟨t, _, _, ht, _, _, rfl⟩ := ofAddColumn_ok h
    exact name_of_openTable ht
  | dropColumn table column =>
    obtain ⟨t, _, ht, _, rfl⟩ := ofDropColumn_ok h
    exact name_of_openTable ht
  | modifyColumn table column definition =>
    obtain ⟨t, _, _, ht, _, _, rfl⟩ := ofModifyColumn_ok h
    exact name_of_openTable ht
  | renameColumn table old new definition =>
    obtain ⟨t, _, _, _, ht, _, _, _, rfl⟩ := ofRenameColumn_ok h
    exact name_of_openTable ht
  | renameTable old new =>
    obtain ⟨o, n, _, _, rfl, rfl, rfl⟩ := ofRenameTable_ok h
    exact ⟨⟨[o, n], rfl⟩, rfl⟩
  | addIndex r =>
    obtain ⟨t, _, _, _, ht, _, _, _, rfl⟩ := ofAddIndex_ok h
    exact name_of_openTable ht
  | dropIndex table name =>
    obtain ⟨t, _, ht, _, rfl⟩ := ofDropIndex_ok h
    exact name_of_openTable ht
  | _ => exact absurd rfl hop

/-- An operation that would change a protected schema is refused for that, whatever else is wrong
with it. One that compiles names its tables plainly, and it names no protected schema. -/
theorem protected_schema_refused (op : Operation) :
    (∀ t ∈ altered op, IsInside t.toList →
      ∃ g, Plan.ofOperation op = .error (.ofFault g) ∧ g.code = .protectedSchema) ∧
    ∀ plan, Plan.ofOperation op = .ok plan → altered op ≠ [] →
      plan.table = (altered op).head? ∧
        ∀ t ∈ altered op, ¬ IsInside t.toList ∧ ∀ c ∈ t.toList, isNameChar c = true := by
  constructor
  · intro t ht hinside
    obtain ⟨rest, hguards⟩ := guards_first op
    obtain ⟨g, hforM, hcode⟩ := forM_guardTable_error ⟨t, ht, targets_of_isInside hinside⟩
    refine ⟨g, ?_, hcode⟩
    rw [hguards, hforM]
    rfl
  · intro plan hplan hop
    obtain ⟨⟨ns, hns⟩, htable⟩ := names_of_compiles hplan hop
    refine ⟨htable, fun t ht => ⟨fun hinside => ?_, fun c hc => ?_⟩⟩
    · have htargets := not_targets_of_compiles hplan t ht
      rw [targets_of_isInside hinside] at htargets
      cases htargets
    · rw [← hns] at ht
      obtain ⟨n, _, rfl⟩ := List.mem_map.mp ht
      rw [toList_text] at hc
      exact isNameChar_of_mem hc

/-- A table that is no name is renamed to a protected schema in mixed letter case; a table inside a
protected schema is altered; and an index is dropped as it should be. -/
theorem protected_schema_refused_renaming :
    (∃ g, Plan.ofOperation (.renameTable "my table" "Information_Schema") = .error (.ofFault g) ∧
      g.code = .protectedSchema) ∧
    (∃ g, Plan.ofOperation (.dropColumn " `MySQL`.user" "") = .error (.ofFault g) ∧
      g.code = .protectedSchema) ∧
    ∃ plan, Plan.ofOperation (.dropIndex "users" "idx") = .ok plan ∧
      plan.table = some "users" ∧ ¬ IsInside "users".toList ∧
        ∀ c ∈ "users".toList, isNameChar c = true := by
  have hnew : IsInside "Information_Schema".toList :=
    IsProtected.isInside ⟨"information_schema", by decide, by decide⟩
  have htable : IsInside " `MySQL`.user".toList :=
    ⟨" `MySQL`".toList, ".user".toList, by decide,
      ⟨[' '], ['`'], "MySQL".toList, ['`'], [], by decide, ⟨"mysql", by decide, by decide⟩,
        List.all_eq_true.mp (by decide), List.all_eq_true.mp (by decide)⟩,
      .inr ⟨"user".toList, by decide⟩⟩
  have hindex : ∃ plan, Plan.ofOperation (.dropIndex "users" "idx") = .ok plan := ⟨_, rfl⟩
  refine ⟨?_, ?_, ?_⟩
  · exact (protected_schema_refused (.renameTable "my table" "Information_Schema")).1 _
      (by decide) hnew
  · exact (protected_schema_refused (.dropColumn " `MySQL`.user" "")).1 _ (by decide) htable
  · obtain ⟨plan, hplan⟩ := hindex
    obtain ⟨hnamed, hall⟩ :=
      (protected_schema_refused (.dropIndex "users" "idx")).2 plan hplan (by decide)
    exact ⟨plan, hplan, hnamed, hall "users" (by decide)⟩

end QueryGateway.Proofs.Plan.ProtectedSchemas
