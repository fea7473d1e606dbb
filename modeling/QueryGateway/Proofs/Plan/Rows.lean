import QueryGateway.Proofs.Plan.Parts

/-!
The statements that read and write rows, each spelled out from the names and conditions that its
plan was made of.
-/

set_option autoImplicit false
set_option relaxedAutoImplicit false

namespace QueryGateway.Proofs.Plan.Rows

open QueryGateway.Sql
open QueryGateway.Plan
open QueryGateway.Proofs.Success
open QueryGateway.Proofs.Plan.Orderings (Asks orderOf)
open QueryGateway.Proofs.Plan.Parts
open QueryGateway.Proofs.Sql.Names

/-! ## Statement texts -/

/-- The filter of a reading behind its table, nothing for no conditions. -/
def filtering (f : Filter) : List Fragment := if f.isEmpty then [] else .words " " :: f.clause

def reading (table : Name) (columns : List Name) (f : Filter) (terms : List OrderTerm)
    (limit offset : Option Int) : List Fragment :=
  .words "SELECT " :: selection columns ++ .words " FROM " :: .name table :: filtering f ++
    sorting terms ++ window limit offset

def updating (table : Name) (columns : List Name) (f : Filter) : List Fragment :=
  .words "UPDATE " :: .name table :: .words " SET " ::
    Fragment.separated ", " (columns.map assignment) ++ .words " " :: f.clause

def deleting (table : Name) (f : Filter) : List Fragment :=
  .words "DELETE FROM " :: .name table :: .words " " :: f.clause

/-! ## Plans -/

theorem ofRead_ok {r : ReadRequest} {p : Plan} (h : ofRead r = .ok p) :
    ∃ (t : Name) (ns : List Name) (f : Filter) (terms : List OrderTerm),
      t.text = r.table ∧ ns.map Name.text = r.columns.getD [] ∧
      Filter.ofFields (r.filter.getD []) = .ok f ∧
      terms.map (fun t => (t.column.text, t.direction)) = orderOf (r.ordering.getD "") ∧
      (∀ n ∈ r.limit, 1 ≤ n ∧ n ≤ maxRows) ∧ (∀ n ∈ r.offset, 0 ≤ n) ∧
      p = single .read t
        { fragments := reading t ns f terms r.limit r.offset
          params := f.params
          description := "Read from table '" ++ t.text ++ "'"
          returnsRows := true } := by
  simp only [ofRead, bind_ok, pure_ok] at h
  obtain ⟨t, ht, cs, hcs, f, hf, o, ho, l, hl, n, hn, rfl⟩ := h
  obtain ⟨ns, hns, rfl⟩ := projection_ok hcs
  obtain ⟨terms, hterms, _, rfl⟩ := orderingClause_ok ho
  obtain ⟨rfl, hlimit⟩ := checkLimit_ok hl
  obtain ⟨rfl, hoffset⟩ := checkOffset_ok hn
  exact ⟨t, ns, f, terms, ofText_ok.mp ht, hns, readingFilter_ok.mp hf, hterms, hlimit, hoffset,
    rfl⟩

theorem asks_of_ofRead {r : ReadRequest} {p : Plan} (h : ofRead r = .ok p)
    (hne : r.ordering.getD "" ≠ "") :
    Asks (r.ordering.getD "").toList (orderOf (r.ordering.getD "")) := by
  simp only [ofRead, bind_ok, pure_ok] at h
  obtain ⟨_, _, _, _, _, _, _, ho, _⟩ := h
  obtain ⟨_, _, hasks, _⟩ := orderingClause_ok ho
  exact hasks hne

theorem ofCreate_ok {table : String} {data : Fields} {p : Plan}
    (h : ofCreate table data = .ok p) :
    ∃ (t : Name) (ns : List Name),
      t.text = table ∧ ns.map Name.text = data.keys ∧ data ≠ [] ∧
      p = single .create t
        { fragments := insertion t ns 1
          params := valuesOf data
          description := "Insert into table '" ++ t.text ++ "'" } := by
  simp only [ofCreate, bind_ok, pure_ok] at h
  obtain ⟨t, ht, ns, hns, rfl⟩ := h
  obtain ⟨hne, hkeys, _⟩ := columnsOf_ok hns
  exact ⟨t, ns, ofText_ok.mp ht, hkeys, hne, rfl⟩

theorem ofUpdate_ok {table : String} {data : Fields} {filter : Option Fields} {p : Plan}
    (h : ofUpdate table data filter = .ok p) :
    ∃ (t : Name) (ns : List Name) (f : Filter),
      t.text = table ∧ ns.map Name.text = data.keys ∧ data ≠ [] ∧ filter.getD [] ≠ [] ∧
      Filter.ofFields (filter.getD []) = .ok f ∧
      p = single .update t
        { fragments := updating t ns f
          params := valuesOf data ++ f.params
          description := "Update table '" ++ t.text ++ "'" } := by
  simp only [ofUpdate, bind_ok, pure_ok] at h
  obtain ⟨t, ht, ns, hns, f, hf, rfl⟩ := h
  obtain ⟨hne, hkeys, _⟩ := columnsOf_ok hns
  obtain ⟨hfilter, hf⟩ := requiredFilter_ok hf
  exact ⟨t, ns, f, ofText_ok.mp ht, hkeys, hne, hfilter, hf, rfl⟩

theorem ofDelete_ok {table : String} {filter : Option Fields} {p : Plan}
    (h : ofDelete table filter = .ok p) :
    ∃ (t : Name) (f : Filter),
      t.text = table ∧ filter.getD [] ≠ [] ∧ Filter.ofFields (filter.getD []) = .ok f ∧
      p = single .delete t
        { fragments := deleting t f
          params := f.params
          description := "Delete from table '" ++ t.text ++ "'" } := by
  simp only [ofDelete, bind_ok, pure_ok] at h
  obtain ⟨t, ht, f, hf, rfl⟩ := h
  obtain ⟨hfilter, hf⟩ := requiredFilter_ok hf
  exact ⟨t, f, ofText_ok.mp ht, hfilter, hf, rfl⟩

private theorem sameKeys_of_checkRecord {first row : Fields} {place : Nat}
    (h : checkRecord first place row = .ok ()) : sameKeys first row = true := by
  cases hs : sameKeys first row with
  | true => rfl
  | false =>
    simp only [checkRecord, hs, Bool.not_false, if_true, bind_ok] at h
    obtain ⟨_, h, _⟩ := h
    cases h

private theorem sameKeys_of_checkRecords {first : Fields} {place : Nat} {rows : List Fields}
    (h : checkRecords first place rows = .ok ()) : ∀ row ∈ rows, sameKeys first row = true := by
  induction rows generalizing place with
  | nil => simp
  | cons row rows ih =>
    simp only [checkRecords, bind_ok] at h
    obtain ⟨_, hrow, hrows⟩ := h
    exact List.forall_mem_cons.mpr ⟨sameKeys_of_checkRecord hrow, ih hrows⟩

theorem ofBulkInsert_ok {table : String} {records : List Fields} {p : Plan}
    (h : ofBulkInsert table records = .ok p) :
    ∃ (t : Name) (ns : List Name) (first : Fields) (rest : List Fields),
      records = first :: rest ∧ t.text = table ∧ ns.map Name.text = first.keys ∧ first ≠ [] ∧
      (∀ row ∈ records, sameKeys first row = true) ∧
      p = single .bulkInsert t
        { fragments := insertion t ns records.length
          params := records.flatMap (valuesFor first.keys)
          description := "Bulk insert " ++ toString records.length ++ " records into table '" ++
            t.text ++ "'" } := by
  simp only [ofBulkInsert, bind_ok] at h
  obtain ⟨t, ht, h⟩ := h
  split at h
  · cases h
  · rename_i first rest
    simp only [bind_ok, pure_ok] at h
    obtain ⟨ns, hns, _, hrows, rfl⟩ := h
    obtain ⟨hne, hkeys, _⟩ := columnsOf_ok hns
    exact ⟨t, ns, first, rest, rfl, ofText_ok.mp ht, hkeys, hne,
      sameKeys_of_checkRecords hrows, rfl⟩

/-! ## Plans of other kinds -/

theorem ofExecute_ok {query : String} {params : Option (List Value)} {allowWrite : Bool} {p : Plan}
    (h : ofExecute query params allowWrite = .ok p) :
    ∃ query', Screening.query allowWrite (.text query) = .ok query' ∧
      Placeholder.count query'.toList = .ok (params.getD []).length ∧
      p = { kind := .execute
            statements := [{ fragments := [.raw query'], params := params.getD [],
                             description := "Execute query" }] } := by
  simp only [ofExecute, bind_ok] at h
  obtain ⟨query', hquery, expected, hexpected, h⟩ := h
  split at h
  · cases h
  · rename_i hcount
    cases h
    have hlength : expected = (params.getD []).length := by simpa using hcount
    exact ⟨query', hquery, by rw [hexpected, hlength], rfl⟩

theorem ofDdl_ok_iff {statement : String} {p : Plan} :
    ofDdl statement = .ok p ↔
      ∃ statement', Screening.schemaStatement (.text statement) = .ok statement' ∧
        p = { kind := .ddl
              statements := [{ fragments := [.raw statement']
                               description := "Execute DDL statement" }] } := by
  rw [ofDdl, bind_ok]
  exact exists_congr fun statement' => and_congr_right fun _ => pure_ok.trans eq_comm

theorem ofList_ok {table : Option String} {p : Plan} (h : ofList table = .ok p) :
    p.statements = [] := by
  cases table with
  | none =>
    cases h
    rfl
  | some table =>
    simp only [ofList, bind_ok, pure_ok] at h
    obtain ⟨t, _, rfl⟩ := h
    rfl

theorem ofUtility_ok {action : UtilityAction} {table : Option String} {p : Plan}
    (h : ofUtility action table = .ok p) : p.statements = [] := by
  unfold ofUtility at h
  split at h
  · simp only [bind_ok, pure_ok] at h
    obtain ⟨t, _, rfl⟩ := h
    rfl
  · cases h
    rfl

/-! ## Steps of transactions -/

theorem ofStep_ok {step : TransactionStep} {p : Plan} (h : ofStep step = .ok p) :
    ∃ op, operationOf step = .ok op ∧ op.kind.isStep = true ∧ ofSimple op = .ok p := by
  simp only [ofStep, ofSuited, bind_ok] at h
  obtain ⟨op, hop, h⟩ := h
  refine ⟨op, hop, ?_⟩
  split at h
  · cases h
  · split at h
    · rename_i hstep
      exact ⟨hstep, h⟩
    · cases h

/-- The statements of steps are those of the plans of the steps, described with their numbers. -/
inductive Stepwise : Nat → List TransactionStep → List Statement → Prop
  | nil (number : Nat) : Stepwise number [] []
  | cons {number : Nat} {step : TransactionStep} {steps : List TransactionStep} {p : Plan}
      {rest : List Statement} : ofStep step = .ok p → Stepwise (number + 1) steps rest →
      Stepwise number (step :: steps) (p.statements.map (stepStatement number) ++ rest)

theorem Stepwise.exists_of_mem {number : Nat} {steps : List TransactionStep} {ss : List Statement}
    (h : Stepwise number steps ss) {step : TransactionStep} (hmem : step ∈ steps) :
    ∃ p place, ofStep step = .ok p ∧ ∀ s ∈ p.statements, stepStatement place s ∈ ss := by
  induction h with
  | nil number => cases hmem
  | @cons number first steps p rest hstep _ ih =>
    rcases List.mem_cons.mp hmem with rfl | hmem
    · exact ⟨p, number, hstep, fun s hs => List.mem_append_left _ (List.mem_map_of_mem hs)⟩
    · obtain ⟨p', place, hp', hs⟩ := ih hmem
      exact ⟨p', place, hp', fun s hmem => List.mem_append_right _ (hs s hmem)⟩

private theorem ofSteps_ok {number : Nat} {steps : List TransactionStep} {ss : List Statement}
    (h : ofSteps number steps = .ok ss) : Stepwise number steps ss := by
  induction steps generalizing number ss with
  | nil =>
    cases h
    exact .nil number
  | cons step steps ih =>
    rw [ofSteps] at h
    split at h
    · cases h
    · rename_i p hp
      simp only [bind_ok, pure_ok] at h
      obtain ⟨rest, hrest, rfl⟩ := h
      exact .cons hp (ih hrest)

theorem ofTransaction_ok {steps : List TransactionStep} {p : Plan}
    (h : ofTransaction steps = .ok p) :
    ∃ ss, Stepwise 1 steps ss ∧
      p = { kind := .transaction, statements := ss, transactional := true } := by
  unfold ofTransaction at h
  split at h
  · cases h
  · simp only [bind_ok, pure_ok] at h
    obtain ⟨ss, hss, rfl⟩ := h
    exact ⟨ss, ofSteps_ok hss, rfl⟩

end QueryGateway.Proofs.Plan.Rows
