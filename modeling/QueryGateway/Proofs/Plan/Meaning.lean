import QueryGateway.Proofs.Plan.Decoder

/-!
Compiling an operation on rows can be undone: the decoder gives its meaning back. So operations that
compile to the same statement mean the same.
-/

set_option autoImplicit false
set_option relaxedAutoImplicit false

namespace QueryGateway.Proofs.Plan.Meaning

open QueryGateway.Sql
open QueryGateway.Plan
open QueryGateway.Proofs.Plan.Orderings (Asks orderOf)
open QueryGateway.Proofs.Plan.Parts
open QueryGateway.Proofs.Plan.Rows
open QueryGateway.Proofs.Plan.Decoder

/-- The tests of a filter on the columns that it names, none for no filter. -/
def testsOf (filter : Option Fields) : List (String × Test) :=
  (filter.getD []).map fun e => (e.1, testFor e.2)

/-- The values of a row under some columns, in the order of the columns. -/
def inOrder (columns : List String) (row : Fields) : Fields :=
  columns.map fun c => (c, (row.get? c).getD .null)

def meaning? : Operation → Option Meaning
  | .read r =>
    some (.read r.table (r.columns.getD []) (testsOf r.filter) (orderOf (r.ordering.getD ""))
      (limitOf r.limit r.offset) (r.offset.getD 0))
  | .create table data => some (.insert table [data])
  | .update table data filter => some (.update table data (testsOf filter))
  | .delete table filter => some (.delete table (testsOf filter))
  | .bulkInsert table (first :: rest) =>
    some (.insert table ((first :: rest).map (inOrder first.keys)))
  | _ => none

/-! ## Undoing plans -/

/-- A plan is undone if its only statement is read back as a meaning. -/
def Undone (p : Plan) (m : Meaning) : Prop :=
  ∃ s, p.statements = [s] ∧ decode s.sql s.params = some m

private theorem tests_eq {filter : Option Fields} {f : Filter}
    (h : Filter.ofFields (filter.getD []) = .ok f) :
    (f.map fun c => (c.column.text, c.test)) = testsOf filter ∧
      ∀ c ∈ f, c.test ≠ .among [] := ofFields_ok h

private theorem ne_nil_of_ofFields {filter : Option Fields} {f : Filter}
    (h : Filter.ofFields (filter.getD []) = .ok f) (hne : filter.getD [] ≠ []) : f ≠ [] := by
  rintro rfl
  have htests := (ofFields_ok h).1
  exact hne (List.map_eq_nil_iff.mp htests.symm)

private theorem undone_read {r : ReadRequest} {p : Plan} (h : ofRead r = .ok p) :
    Undone p (.read r.table (r.columns.getD []) (testsOf r.filter)
      (orderOf (r.ordering.getD "")) (limitOf r.limit r.offset) (r.offset.getD 0)) := by
  obtain ⟨t, ns, f, terms, ht, hns, hf, hterms, hlimit, hoffset, rfl⟩ := ofRead_ok h
  obtain ⟨htests, hamong⟩ := tests_eq hf
  have htakes := takes_reading t ns terms hamong hlimit hoffset
  rw [ht, hns, htests, hterms] at htakes
  exact ⟨_, rfl, decode_of_takes htakes (by decide)⟩

private theorem undone_delete {table : String} {filter : Option Fields} {p : Plan}
    (h : ofDelete table filter = .ok p) : Undone p (.delete table (testsOf filter)) := by
  obtain ⟨t, f, ht, hfilter, hf, rfl⟩ := ofDelete_ok h
  obtain ⟨htests, hamong⟩ := tests_eq hf
  have htakes := takes_deleting (t := t) (ne_nil_of_ofFields hf hfilter) hamong
  rw [ht, htests] at htakes
  exact ⟨_, rfl, decode_of_takes htakes (by decide)⟩

private theorem exists_entries {ns : List Name} {row : Fields} (h : ns.map Name.text = row.keys) :
    ∃ es : List (Name × Value), es.map (·.1) = ns ∧ es.map (·.2) = valuesOf row ∧
      (es.map fun e => (e.1.text, e.2)) = row := by
  induction ns generalizing row with
  | nil =>
    cases row with
    | nil => exact ⟨[], rfl, rfl, rfl⟩
    | cons e row => cases h
  | cons n ns ih =>
    cases row with
    | nil => cases h
    | cons e row =>
      obtain ⟨hn, hns⟩ := List.cons_eq_cons.mp h
      obtain ⟨es, hnames, hvalues, hrow⟩ := ih hns
      refine ⟨(n, e.2) :: es, ?_, ?_, ?_⟩
      · rw [List.map_cons, hnames]
      · rw [List.map_cons, hvalues]
        rfl
      · rw [List.map_cons, hrow, hn]

private theorem undone_update {table : String} {data : Fields} {filter : Option Fields} {p : Plan}
    (h : ofUpdate table data filter = .ok p) : Undone p (.update table data (testsOf filter)) := by
  obtain ⟨t, ns, f, ht, hkeys, hdata, hfilter, hf, rfl⟩ := ofUpdate_ok h
  obtain ⟨htests, hamong⟩ := tests_eq hf
  obtain ⟨es, rfl, hvalues, hrow⟩ := exists_entries hkeys
  have hes : es ≠ [] := by
    rintro rfl
    exact hdata hrow.symm
  have htakes := takes_updating (t := t) hes (ne_nil_of_ofFields hf hfilter) hamong
  rw [ht, hvalues, hrow, htests] at htakes
  exact ⟨_, rfl, decode_of_takes htakes (by decide)⟩

private theorem ne_nil_of_keys {ns : List Name} {row : Fields} (h : ns.map Name.text = row.keys)
    (hne : row ≠ []) : ns ≠ [] := by
  rintro rfl
  exact hne (List.map_eq_nil_iff.mp h.symm)

private theorem undone_create {table : String} {data : Fields} {p : Plan}
    (h : ofCreate table data = .ok p) : Undone p (.insert table [data]) := by
  obtain ⟨t, ns, ht, hkeys, hne, rfl⟩ := ofCreate_ok h
  have hlength : ∀ row ∈ [valuesOf data], row.length = ns.length := by
    rw [← List.length_map Name.text, hkeys]
    simp [valuesOf, Fields.keys]
  have hrow : data.keys.zip (valuesOf data) = data := by
    rw [Fields.keys, valuesOf, List.zip_map']
    exact List.map_id data
  have htakes := takes_insertion (t := t) (ne_nil_of_keys hkeys hne) (by simp) hlength
  rw [ht, hkeys, List.map_singleton, hrow, List.flatten_singleton] at htakes
  exact ⟨_, rfl, decode_of_takes htakes (by decide)⟩

private theorem zip_valuesFor (keys : List String) (row : Fields) :
    keys.zip (valuesFor keys row) = inOrder keys row := by
  have hzip := List.zip_map' (f := id) (g := fun k => (row.get? k).getD .null) (l := keys)
  rw [List.map_id] at hzip
  exact hzip

private theorem undone_bulkInsert {table : String} {first : Fields} {rest : List Fields} {p : Plan}
    (h : ofBulkInsert table (first :: rest) = .ok p) :
    Undone p (.insert table ((first :: rest).map (inOrder first.keys))) := by
  obtain ⟨t, ns, first', rest', hrecords, ht, hkeys, hne, _, rfl⟩ := ofBulkInsert_ok h
  obtain ⟨rfl, rfl⟩ := List.cons_eq_cons.mp hrecords
  have hlength : ∀ row ∈ (first :: rest).map (valuesFor first.keys), row.length = ns.length := by
    rw [← List.length_map Name.text, hkeys]
    simp [valuesFor]
  have htakes := takes_insertion (t := t) (ne_nil_of_keys hkeys hne) (by simp) hlength
  rw [ht, hkeys, List.length_map, ← List.flatMap_def, List.map_map] at htakes
  have hrows : (fun row => first.keys.zip row) ∘ valuesFor first.keys = inOrder first.keys :=
    funext fun row => zip_valuesFor first.keys row
  rw [hrows] at htakes
  exact ⟨_, rfl, decode_of_takes htakes (by decide)⟩

/-! ## Rows of many records -/

private theorem get?_of_mem {row : Fields} {e : String × Value} (hrow : row.keys.Nodup)
    (he : e ∈ row) :
    row.get? e.1 = some e.2 := by
  induction row with
  | nil => cases he
  | cons d row ih =>
    obtain ⟨hd, hrow⟩ := List.nodup_cons.mp hrow
    rcases List.mem_cons.mp he with rfl | he
    · simp [Fields.get?]
    · have hne : d.1 ≠ e.1 := by
        intro heq
        have hkey : e.1 ∈ row.map (·.1) := List.mem_map_of_mem he
        rw [← heq] at hkey
        exact hd hkey
      have hget := ih hrow he
      simpa [Fields.get?, hne] using hget

private theorem keys_inOrder (keys : List String) (row : Fields) :
    (inOrder keys row).keys = keys := by
  simp [inOrder, Fields.keys, Function.comp_def]

private theorem nodup_of_keys {row : Fields} (h : row.keys.Nodup) : row.Nodup :=
  List.Pairwise.of_map (·.1) (fun _ _ hne heq => hne (congrArg (·.1) heq)) h

private theorem mem_keys_of_sameKeys {a b : Fields} (h : sameKeys a b = true) (k : String) :
    k ∈ a.keys ↔ k ∈ b.keys := by
  simp only [sameKeys, Fields.has, Bool.and_eq_true, List.all_eq_true, List.any_eq_true,
    beq_iff_eq] at h
  constructor
  · intro hk
    obtain ⟨e, he, rfl⟩ := h.1 k hk
    exact List.mem_map_of_mem he
  · intro hk
    obtain ⟨e, he, rfl⟩ := h.2 k hk
    exact List.mem_map_of_mem he

private theorem inOrder_perm {first row : Fields} (hfirst : first.keys.Nodup)
    (hrow : row.keys.Nodup)
    (h : sameKeys first row = true) : (inOrder first.keys row).Perm row := by
  have hnodup : (inOrder first.keys row).Nodup :=
    nodup_of_keys (by rw [keys_inOrder]; exact hfirst)
  refine (List.perm_ext_iff_of_nodup hnodup (nodup_of_keys hrow)).mpr fun e => ?_
  constructor
  · intro he
    obtain ⟨k, hk, rfl⟩ := List.mem_map.mp he
    obtain ⟨d, hd, rfl⟩ := List.mem_map.mp ((mem_keys_of_sameKeys h k).mp hk)
    rw [get?_of_mem hrow hd]
    exact hd
  · intro he
    have hk := (mem_keys_of_sameKeys h e.1).mpr (List.mem_map_of_mem he)
    refine List.mem_map.mpr ⟨e.1, hk, ?_⟩
    rw [get?_of_mem hrow he]
    rfl

private theorem inOrder_self {row : Fields} (h : row.keys.Nodup) : inOrder row.keys row = row := by
  have hrow : ∀ e ∈ row, (e.1, (row.get? e.1).getD .null) = e := by
    intro e he
    rw [get?_of_mem h he]
    rfl
  rw [inOrder, Fields.keys, List.map_map]
  exact (List.map_congr_left hrow).trans (List.map_id row)

/-- The rows that a compiled insertion of records means: the first one as it is, the others in its
order. -/
private theorem rows_bulkInsert {table : String} {first : Fields} {rest : List Fields} {p : Plan}
    (h : ofBulkInsert table (first :: rest) = .ok p)
    (hnodup : ∀ row ∈ first :: rest, row.keys.Nodup) :
    ∃ rows, (first :: rest).map (inOrder first.keys) = first :: rows ∧
      (∀ row ∈ rows, row.keys = first.keys) ∧ List.Forall₂ List.Perm rows rest := by
  obtain ⟨_, _, first', rest', hrecords, _, _, _, hsame, _⟩ := ofBulkInsert_ok h
  obtain ⟨rfl, rfl⟩ := List.cons_eq_cons.mp hrecords
  have hfirst := hnodup first List.mem_cons_self
  refine ⟨rest.map (inOrder first.keys), ?_, ?_, ?_⟩
  · rw [List.map_cons, inOrder_self hfirst]
  · intro row hrow
    obtain ⟨record, _, rfl⟩ := List.mem_map.mp hrow
    exact keys_inOrder first.keys record
  · have hperm : ∀ row ∈ rest, (inOrder first.keys row).Perm row := fun row hrow =>
      inOrder_perm hfirst (hnodup row (List.mem_cons_of_mem _ hrow))
        (hsame row (List.mem_cons_of_mem _ hrow))
    rw [List.forall₂_map_left_iff]
    exact List.forall₂_same.mpr hperm

/-! ## Undoing operations -/

/-- Whether operations of a kind read or write rows by names and values. -/
def isOnRows : OperationKind → Bool
  | .read | .create | .update | .delete | .bulkInsert => true
  | _ => false

/-- Plans whose statements have the same texts and the same parameters. -/
def SameStatements (p q : Plan) : Prop :=
  (p.statements.map fun s => (s.sql, s.params)) = q.statements.map fun s => (s.sql, s.params)

private theorem undone_unique {p q : Plan} {m n : Meaning} (hp : Undone p m) (hq : Undone q n)
    (h : SameStatements p q) : m = n := by
  obtain ⟨s, hs, hm⟩ := hp
  obtain ⟨s', hs', hn⟩ := hq
  rw [SameStatements, hs, hs', List.map_singleton, List.map_singleton, List.singleton_inj,
    Prod.mk.injEq] at h
  rw [h.1, h.2, hn] at hm
  exact (Option.some.inj hm).symm

private theorem undone_of_meaning {op : Operation} {p : Plan} {m : Meaning}
    (hm : meaning? op = some m)
    (h : ofOperation op = .ok p) : Undone p m := by
  unfold meaning? at hm
  split at hm <;> cases hm
  · exact undone_read h
  · exact undone_create h
  · exact undone_update h
  · exact undone_delete h
  · exact undone_bulkInsert h

private theorem exists_meaning {op : Operation} {p : Plan} (hkind : isOnRows op.kind = true)
    (h : ofOperation op = .ok p) : ∃ m, meaning? op = some m := by
  cases op with
  | bulkInsert table records =>
    obtain ⟨_, _, first, rest, rfl, _⟩ := ofBulkInsert_ok h
    exact ⟨_, rfl⟩
  | read _ | create _ _ | update _ _ _ | delete _ _ => exact ⟨_, rfl⟩
  | _ => cases hkind

/-- The decoder gives back what a compiled operation on rows means. Only operations of the same
meaning compile to its statement. The ordering that a reading means is what the grammar of orderings
says of its text. The rows of its meaning, if it inserts records, are the records with the columns
of the first one in its order; for one record they are those of its creation. -/
theorem decode_ofOperation {op : Operation} {p : Plan} (hkind : isOnRows op.kind = true)
    (h : ofOperation op = .ok p) :
    ∃ m, meaning? op = some m ∧ Undone p m ∧
      (∀ op' p', isOnRows op'.kind = true → ofOperation op' = .ok p' → SameStatements p p' →
        meaning? op' = some m) ∧
      (∀ r, op = .read r → r.ordering.getD "" ≠ "" →
        Asks (r.ordering.getD "").toList (orderOf (r.ordering.getD ""))) ∧
      ∀ table first rest, op = .bulkInsert table (first :: rest) →
        (∀ row ∈ first :: rest, row.keys.Nodup) →
        ∃ rows, m = .insert table (first :: rows) ∧ (∀ row ∈ rows, row.keys = first.keys) ∧
          List.Forall₂ List.Perm rows rest := by
  obtain ⟨m, hm⟩ := exists_meaning hkind h
  have hundone := undone_of_meaning hm h
  refine ⟨m, hm, hundone, fun op' p' hkind' hp' hsame => ?_, ?_, ?_⟩
  · obtain ⟨m', hm'⟩ := exists_meaning hkind' hp'
    rw [hm', undone_unique hundone (undone_of_meaning hm' hp') hsame]
  · rintro r rfl hne
    exact asks_of_ofRead h hne
  · rintro table first rest rfl hnodup
    obtain ⟨rows, hrows, hkeys, hperm⟩ := rows_bulkInsert h hnodup
    refine ⟨rows, ?_, hkeys, hperm⟩
    rw [← Option.some.inj hm, hrows]

def mixedRecords : List Fields :=
  [[("a", .int 1), ("b", .null)], [("b", .text "?"), ("a", .int 2)]]

theorem decode_ofOperation_mixedRecords :
    ∃ p, ofOperation (.bulkInsert "t" mixedRecords) = .ok p ∧
      Undone p
        (.insert "t" [[("a", .int 1), ("b", .null)], [("a", .int 2), ("b", .text "?")]]) := by
  have h : ofOperation (.bulkInsert "t" mixedRecords) = .ok _ := rfl
  obtain ⟨m, hm, hundone, _⟩ := decode_ofOperation (by rfl) h
  rw [← Option.some.inj hm] at hundone
  exact ⟨_, h, hundone⟩

end QueryGateway.Proofs.Plan.Meaning
