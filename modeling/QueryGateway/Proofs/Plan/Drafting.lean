import QueryGateway.Proofs.Plan.Clauses

/-!
The fragments of each operation: they stand in order, their names are those that the caller
supplies, and operations that differ in names only have the same fragments apart from names.
-/

set_option autoImplicit false
set_option relaxedAutoImplicit false

namespace QueryGateway.Proofs.Plan.Drafting

open QueryGateway.Sql
open QueryGateway.Plan
open QueryGateway.Proofs.Plan.Orderings (orderOf)
open QueryGateway.Proofs.Plan.Rows
open QueryGateway.Proofs.Plan.Schema
open QueryGateway.Proofs.Sql.Fragments
open QueryGateway.Proofs.Sql.Lexemes
open QueryGateway.Proofs.Sql.Lexical (render_cons)
open QueryGateway.Proofs.Sql.Sentences
open QueryGateway.Proofs.Plan.Clauses

/-! ## Operations -/

def suppliedNames : Operation → List String
  | .read r =>
    r.columns.getD [] ++ r.table :: (r.filter.getD []).keys ++
      (orderOf (r.ordering.getD "")).map Prod.fst
  | .create table data => table :: data.keys
  | .update table data filter => table :: data.keys ++ (filter.getD []).keys
  | .delete table filter => table :: (filter.getD []).keys
  | .bulkInsert table records => table :: (records.headD []).keys
  | .addColumn table column position => table :: column.name :: neighbour position
  | .dropColumn table column => [table, column]
  | .modifyColumn table column _ => [table, column]
  | .renameColumn table old new _ => [table, old, new]
  | .renameTable old new => [old, new]
  | .addIndex r => r.name :: r.table :: r.columns
  | .dropIndex table name => [name, table]
  | _ => []

/-- A statement of an operation: it is read fragment by fragment, its names are those that the
caller supplies, and it has a mark for each of its parameters. -/
structure Drafts (op : Operation) (s : Statement) : Prop where
  legible : Legible s.fragments
  begins : Begins s.chars
  names : (namesIn s.fragments).map Name.text = suppliedNames op
  matched : s.fragments.count .mark = s.params.length

private theorem length_of_texts {ms : List Name} {ss : List String} (h : ms.map Name.text = ss) :
    ms.length = ss.length := by
  rw [← h, List.length_map]

private theorem length_keys (data : Fields) : data.keys.length = data.length := List.length_map _

theorem drafts_read {r : ReadRequest} {p : Plan} (h : ofRead r = .ok p) :
    ∃ s, p.statements = [s] ∧ Drafts (.read r) s := by
  obtain ⟨t, ns, f, terms, ht, hns, hf, hterms, _, _, rfl⟩ := ofRead_ok h
  have hcolumns := columns_of_ofFields hf
  refine ⟨_, rfl, legible_reading t ns f _ _ _, ⟨"SELECT", by decide, _, rfl⟩, ?_,
    count_reading t ns f _ _ _⟩
  simp [reading, suppliedNames, ht, hns, ← hcolumns, ← hterms, Function.comp_def]

theorem drafts_create {table : String} {data : Fields} {p : Plan}
    (h : ofCreate table data = .ok p) :
    ∃ s, p.statements = [s] ∧ Drafts (.create table data) s := by
  obtain ⟨t, ns, ht, hns, _, rfl⟩ := ofCreate_ok h
  refine ⟨_, rfl, legible_insertion t ns 1, ⟨"INSERT", by decide, _, rfl⟩, ?_, ?_⟩
  · simp [insertion, suppliedNames, ht, hns]
  · rw [count_insertion, length_of_texts hns, length_keys, Nat.one_mul]
    exact (List.length_map _).symm

theorem drafts_update {table : String} {data : Fields} {filter : Option Fields} {p : Plan}
    (h : ofUpdate table data filter = .ok p) :
    ∃ s, p.statements = [s] ∧ Drafts (.update table data filter) s := by
  obtain ⟨t, ns, f, ht, hns, _, _, hf, rfl⟩ := ofUpdate_ok h
  have hcolumns := columns_of_ofFields hf
  have hassignments : (ns.map assignment).flatMap namesIn = ns := by
    simp [assignment, List.flatMap_map]
  refine ⟨_, rfl, legible_updating t ns f, ⟨"UPDATE", by decide, _, rfl⟩, ?_, ?_⟩
  · simp [updating, suppliedNames, ht, hns, ← hcolumns, hassignments]
  · rw [count_updating, length_of_texts hns, length_keys, List.length_append, valuesOf,
      List.length_map]

theorem drafts_delete {table : String} {filter : Option Fields} {p : Plan}
    (h : ofDelete table filter = .ok p) :
    ∃ s, p.statements = [s] ∧ Drafts (.delete table filter) s := by
  obtain ⟨t, f, ht, _, hf, rfl⟩ := ofDelete_ok h
  have hcolumns := columns_of_ofFields hf
  refine ⟨_, rfl, legible_deleting t f, ⟨"DELETE", by decide, _, rfl⟩, ?_, count_deleting t f⟩
  simp [deleting, suppliedNames, ht, ← hcolumns]

theorem drafts_bulkInsert {table : String} {records : List Fields} {p : Plan}
    (h : ofBulkInsert table records = .ok p) :
    ∃ s, p.statements = [s] ∧ Drafts (.bulkInsert table records) s := by
  obtain ⟨t, ns, first, rest, rfl, ht, hns, _, _, rfl⟩ := ofBulkInsert_ok h
  refine ⟨_, rfl, legible_insertion t ns _, ⟨"INSERT", by decide, _, rfl⟩, ?_, ?_⟩
  · simp [insertion, suppliedNames, ht, hns, List.flatMap_replicate]
  · have hrow : ∀ row, (valuesFor first.keys row).length = ns.length := by
      intro row
      rw [valuesFor, List.length_map, length_of_texts hns]
    rw [count_insertion, List.length_flatMap, funext hrow, List.map_const',
      List.sum_replicate_nat]

private theorem begins_alterTable (t : Name) (change : String) (fs : List Fragment) :
    Begins (Fragment.render (alterTable t change ++ fs)) := ⟨"ALTER", by decide, _, rfl⟩

private theorem legible_alterTable (t : Name) {change : String} {fs : List Fragment}
    (hchange : Trails (.words change :: fs)) : Legible (alterTable t change ++ fs) :=
  (isLead_of_check (s := "ALTER TABLE ") rfl).before (hchange.name t)

private theorem count_alterTable (t : Name) (change : String) (fs : List Fragment) :
    (alterTable t change ++ fs).count .mark = fs.count .mark := by
  simp [alterTable]

theorem drafts_addColumn {table : String} {column : NamedColumn} {position : Option Placement}
    {p : Plan} (h : ofAddColumn table column position = .ok p) :
    ∃ s, p.statements = [s] ∧ Drafts (.addColumn table column position) s := by
  obtain ⟨t, definition, ns, ht, hdefinition, hns, rfl⟩ := ofAddColumn_ok h
  have hback := (legible_define hdefinition).append (trails_placing position ns)
  refine ⟨_, rfl, ?_, ?_, ?_, ?_⟩
  · have hall := legible_alterTable t ((isLead_of_check (s := " ADD COLUMN ") rfl).trails rfl hback)
    rwa [← List.append_assoc] at hall
  · have hbegins := begins_alterTable t " ADD COLUMN " (definition ++ placing position ns)
    rwa [← List.append_assoc] at hbegins
  · simp [alterTable, suppliedNames, (openTable_ok ht).1, namesIn_define hdefinition,
      namesIn_placing hns]
  · have hcount : (definition ++ placing position ns).count .mark = 0 := by
      rw [List.count_append, count_define hdefinition, count_placing]
    have hall := (count_alterTable t " ADD COLUMN " _).trans hcount
    rwa [← List.append_assoc] at hall

theorem drafts_dropColumn {table column : String} {p : Plan}
    (h : ofDropColumn table column = .ok p) :
    ∃ s, p.statements = [s] ∧ Drafts (.dropColumn table column) s := by
  obtain ⟨t, c, ht, hc, rfl⟩ := ofDropColumn_ok h
  refine ⟨_, rfl, ?_, begins_alterTable t _ _, ?_, count_alterTable t _ _⟩
  · exact legible_alterTable t ((isLead_of_check rfl).trails rfl (trails_nil.name c))
  · simp [alterTable, suppliedNames, (openTable_ok ht).1, hc]

theorem drafts_modifyColumn {table column : String} {spec : ColumnSpec} {p : Plan}
    (h : ofModifyColumn table column spec = .ok p) :
    ∃ s, p.statements = [s] ∧ Drafts (.modifyColumn table column spec) s := by
  obtain ⟨t, c, definition, ht, _, hdefinition, rfl⟩ := ofModifyColumn_ok h
  refine ⟨_, rfl, ?_, begins_alterTable t _ _, ?_, ?_⟩
  · exact legible_alterTable t ((isLead_of_check rfl).trails rfl (legible_define hdefinition))
  · simp [alterTable, suppliedNames, (openTable_ok ht).1, namesIn_define hdefinition]
  · exact (count_alterTable t _ _).trans (count_define hdefinition)

theorem drafts_renameColumn {table old new : String} {spec : Option ColumnSpec} {p : Plan}
    (h : ofRenameColumn table old new spec = .ok p) :
    ∃ s, p.statements = [s] ∧ Drafts (.renameColumn table old new spec) s := by
  obtain ⟨t, o, n, change, ht, ho, hn, hchange, rfl⟩ := ofRenameColumn_ok h
  have hdraft : Legible change ∧ (namesIn change).map Name.text = [old, new] ∧
      change.count .mark = 0 := by
    rcases renameChange_ok hchange with ⟨_, rfl⟩ | ⟨d, definition, _, hdefinition, rfl⟩
    · have hto := (isLead_of_check (s := " TO ") rfl).trails rfl (trails_nil.name n)
      exact ⟨(isLead_of_check rfl).before (hto.name o), by simp [ho, hn], by simp⟩
    · have hback := (isLead_of_check (s := " ") rfl).trails rfl (legible_define hdefinition)
      exact ⟨(isLead_of_check rfl).before (hback.name o),
        by simp [namesIn_define hdefinition, ho, hn], by simp [count_define hdefinition]⟩
  obtain ⟨hlegible, hnames, hcount⟩ := hdraft
  refine ⟨_, rfl, ?_, begins_alterTable t _ _, ?_, ?_⟩
  · exact legible_alterTable t ((isLead_of_check rfl).trails rfl hlegible)
  · simp [alterTable, suppliedNames, (openTable_ok ht).1, hnames]
  · exact (count_alterTable t _ _).trans hcount

theorem drafts_renameTable {old new : String} {p : Plan} (h : ofRenameTable old new = .ok p) :
    ∃ s, p.statements = [s] ∧ Drafts (.renameTable old new) s := by
  obtain ⟨o, n, _, _, ho, hn, rfl⟩ := ofRenameTable_ok h
  refine ⟨_, rfl, ?_, begins_alterTable o _ _, ?_, count_alterTable o _ _⟩
  · exact legible_alterTable o ((isLead_of_check rfl).trails rfl (trails_nil.name n))
  · simp [alterTable, suppliedNames, ho, hn]

theorem drafts_addIndex {r : IndexRequest} {p : Plan} (h : ofAddIndex r = .ok p) :
    ∃ s, p.statements = [s] ∧ Drafts (.addIndex r) s := by
  obtain ⟨t, n, ns, words, ht, hn, hns, hwords, rfl⟩ := ofAddIndex_ok h
  have hall : indexAffixes.all (fun w =>
      isReadable true ("CREATE " ++ w.1 ++ "INDEX ") && isReadable false (")" ++ w.2)) = true := by
    decide +kernel
  obtain ⟨hfront, hback⟩ := Bool.and_eq_true_iff.mp
    (List.all_eq_true.mp hall words (indexWords_ok hwords))
  have hclose : Trails [.words (")" ++ words.2)] :=
    trails_only (isWording_of_check hback) (isParted_words (by decide) rfl)
  have hcolumns := (isLead_of_check (s := " (") rfl).trails rfl ((legible_names ns).append hclose)
  have hon := (isLead_of_check (s := " ON ") rfl).trails rfl (hcolumns.name t)
  have hwords : ("CREATE " ++ words.1 ++ "INDEX ").toList =
      "CREATE".toList ++ ' ' :: (words.1.toList ++ "INDEX ".toList) := by
    simp [String.toList_append]
  have hbegins : ∀ fs : List Fragment,
      Begins (Fragment.render (.words ("CREATE " ++ words.1 ++ "INDEX ") :: fs)) := by
    intro fs
    refine ⟨"CREATE", by decide, words.1.toList ++ "INDEX ".toList ++ Fragment.render fs, ?_⟩
    rw [render_cons, Fragment.chars, hwords, List.append_assoc, List.cons_append]
  refine ⟨_, rfl, (isLead_of_check hfront).before (hon.name n), hbegins _, ?_, ?_⟩
  · simp [suppliedNames, (openTable_ok ht).1, hn, hns]
  · simp

theorem drafts_dropIndex {table name : String} {p : Plan} (h : ofDropIndex table name = .ok p) :
    ∃ s, p.statements = [s] ∧ Drafts (.dropIndex table name) s := by
  obtain ⟨t, n, ht, hn, rfl⟩ := ofDropIndex_ok h
  have hon := (isLead_of_check (s := " ON ") rfl).trails rfl (trails_nil.name t)
  refine ⟨_, rfl, (isLead_of_check rfl).before (hon.name n), ⟨"DROP", by decide, _, rfl⟩, ?_,
    by simp⟩
  simp [suppliedNames, (openTable_ok ht).1, hn]

/-- A placement with its column, if it has one, kept secret. -/
def veilPlacement : Placement → Placement
  | .first => .first
  | .after _ => .after ""

/-- Operations that differ in nothing but the names that their callers supply. -/
inductive SameButNames : Operation → Operation → Prop
  | read {r q : ReadRequest} : (r.columns.getD []).length = (q.columns.getD []).length →
      (r.filter.getD []).map (·.2) = (q.filter.getD []).map (·.2) →
      (orderOf (r.ordering.getD "")).map Prod.snd = (orderOf (q.ordering.getD "")).map Prod.snd →
      r.limit = q.limit → r.offset = q.offset → SameButNames (.read r) (.read q)
  | create {t u : String} {data data' : Fields} : data.map (·.2) = data'.map (·.2) →
      SameButNames (.create t data) (.create u data')
  | update {t u : String} {data data' : Fields} {filter filter' : Option Fields} :
      data.map (·.2) = data'.map (·.2) →
      (filter.getD []).map (·.2) = (filter'.getD []).map (·.2) →
      SameButNames (.update t data filter) (.update u data' filter')
  | delete {t u : String} {filter filter' : Option Fields} :
      (filter.getD []).map (·.2) = (filter'.getD []).map (·.2) →
      SameButNames (.delete t filter) (.delete u filter')
  | bulkInsert {t u : String} {records records' : List Fields} :
      (records.map fun row => row.map (·.2)) = (records'.map fun row => row.map (·.2)) →
      SameButNames (.bulkInsert t records) (.bulkInsert u records')
  | addColumn {t u : String} {column column' : NamedColumn}
      {position position' : Option Placement} :
      column.spec = column'.spec → position.map veilPlacement = position'.map veilPlacement →
      SameButNames (.addColumn t column position) (.addColumn u column' position')
  | dropColumn {t u column column' : String} :
      SameButNames (.dropColumn t column) (.dropColumn u column')
  | modifyColumn {t u column column' : String} {spec : ColumnSpec} :
      SameButNames (.modifyColumn t column spec) (.modifyColumn u column' spec)
  | renameColumn {t u old old' new new' : String} {spec : Option ColumnSpec} :
      SameButNames (.renameColumn t old new spec) (.renameColumn u old' new' spec)
  | renameTable {old old' new new' : String} :
      SameButNames (.renameTable old new) (.renameTable old' new')
  | addIndex {r q : IndexRequest} : r.columns.length = q.columns.length → r.method = q.method →
      r.unique = q.unique → SameButNames (.addIndex r) (.addIndex q)
  | dropIndex {t u name name' : String} : SameButNames (.dropIndex t name) (.dropIndex u name')

private theorem length_of_keys {ms ns : List Name} {data data' : Fields}
    (hm : ms.map Name.text = data.keys) (hn : ns.map Name.text = data'.keys)
    (h : data.map (·.2) = data'.map (·.2)) : ms.length = ns.length := by
  rw [length_of_texts hm, length_of_texts hn, Fields.keys, Fields.keys, List.length_map,
    List.length_map, ← List.length_map (·.2), h, List.length_map]

private theorem outline_define_congr {spec : ColumnSpec} {c d : String} {fs gs : List Fragment}
    (hf : spec.define (.text c) = .ok fs) (hg : spec.define (.text d) = .ok gs) :
    outline fs = outline gs := by
  obtain ⟨n, type, default, comment, _, htype, hdefault, hcomment, rfl⟩ := define_ok hf
  obtain ⟨m, type', default', comment', _, htype', hdefault', hcomment', rfl⟩ := define_ok hg
  cases htype.symm.trans htype'
  cases hdefault.symm.trans hdefault'
  cases hcomment.symm.trans hcomment'
  rfl

private theorem outline_assignments_congr {ms ns : List Name} (h : ms.length = ns.length) :
    outline (Fragment.separated ", " (ms.map assignment)) =
      outline (Fragment.separated ", " (ns.map assignment)) := by
  have hparts : ∀ ks : List Name, (ks.map assignment).map outline =
      List.replicate ks.length (outline (assignment anyName)) := by
    intro ks
    induction ks with
    | nil => rfl
    | cons k ks ih => rw [List.map_cons, List.map_cons, ih]; rfl
  rw [outline_separated, outline_separated, hparts, hparts, h]

private theorem outline_insertion_congr {t u : Name} {ms ns : List Name} {j k : Nat}
    (h : ms.length = ns.length) (hcount : j = k) :
    outline (insertion t ms j) = outline (insertion u ns k) := by
  subst hcount
  simp only [insertion, outline_append, outline_cons, veil_name, outline_names_congr h, h]

private theorem outline_placing_congr {position position' : Option Placement} {ms ns : List Name}
    (hm : ms.map Name.text = neighbour position) (hn : ns.map Name.text = neighbour position')
    (h : position.map veilPlacement = position'.map veilPlacement) :
    outline (placing position ms) = outline (placing position' ns) := by
  match position, position', h with
  | none, none, _ => rfl
  | some .first, some .first, _ => rfl
  | some (.after c), some (.after d), _ =>
    have hlength : ms.length = ns.length := by rw [length_of_texts hm, length_of_texts hn]; rfl
    simp only [placing, outline_cons, outline_names_congr hlength]

private theorem outline_renameChange_congr {old old' new new' : Name} {spec : Option ColumnSpec}
    {fs gs : List Fragment} (hf : renameChange old new spec = .ok fs)
    (hg : renameChange old' new' spec = .ok gs) : outline fs = outline gs := by
  rcases renameChange_ok hf with ⟨rfl, rfl⟩ | ⟨d, definition, rfl, hdefinition, rfl⟩
  · rcases renameChange_ok hg with ⟨_, rfl⟩ | ⟨_, _, h, _, _⟩
    · rfl
    · cases h
  · rcases renameChange_ok hg with ⟨h, _⟩ | ⟨d', definition', h, hdefinition', rfl⟩
    · cases h
    · cases h
      simp only [outline_cons, veil_name, outline_define_congr hdefinition hdefinition']

/-! ## Plans that differ in names -/

/-- Plans whose statements have the same fragments apart from names. -/
def SameOutlines (p q : Plan) : Prop :=
  (p.statements.map fun s => outline s.fragments) = q.statements.map fun s => outline s.fragments

theorem outline_of_sameOutlines {p q : Plan} {s t : Statement} (h : SameOutlines p q)
    (hs : p.statements = [s]) (ht : q.statements = [t]) :
    outline s.fragments = outline t.fragments := by
  rw [SameOutlines, hs, ht, List.map_singleton, List.map_singleton] at h
  exact List.singleton_inj.mp h

section

variable {t u : String} {p q : Plan}

private theorem tests_congr {a b : Option Fields} {f g : Filter}
    (hf : Filter.ofFields (a.getD []) = .ok f) (hg : Filter.ofFields (b.getD []) = .ok g)
    (h : (a.getD []).map (·.2) = (b.getD []).map (·.2)) :
    f.map Condition.test = g.map Condition.test := by
  rw [tests_of_ofFields hf, tests_of_ofFields hg, h]

private theorem sameOutlines_read {r r' : ReadRequest}
    (hcolumns : (r.columns.getD []).length = (r'.columns.getD []).length)
    (hfilter : (r.filter.getD []).map (·.2) = (r'.filter.getD []).map (·.2))
    (hordering : (orderOf (r.ordering.getD "")).map Prod.snd =
      (orderOf (r'.ordering.getD "")).map Prod.snd)
    (hlimit : r.limit = r'.limit) (hoffset : r.offset = r'.offset) (hp : ofRead r = .ok p)
    (hq : ofRead r' = .ok q) : SameOutlines p q := by
  obtain ⟨n, ns, f, terms, _, hns, hf, hterms, _, _, rfl⟩ := ofRead_ok hp
  obtain ⟨m, ms, g, terms', _, hms, hg, hterms', _, _, rfl⟩ := ofRead_ok hq
  have hlength : ns.length = ms.length := by
    rw [length_of_texts hns, length_of_texts hms, hcolumns]
  have hdirections : terms.map OrderTerm.direction = terms'.map OrderTerm.direction := by
    rw [← hterms, ← hterms', List.map_map, List.map_map] at hordering
    exact hordering
  refine congrArg (fun o => [o]) ?_
  simp only [reading, outline_append, outline_cons, veil_name, hlimit, hoffset,
    outline_selection_congr hlength, outline_filtering_congr (tests_congr hf hg hfilter),
    outline_sorting_congr hdirections]

private theorem sameOutlines_create {data data' : Fields} (hdata : data.map (·.2) = data'.map (·.2))
    (hp : ofCreate t data = .ok p) (hq : ofCreate u data' = .ok q) : SameOutlines p q := by
  obtain ⟨n, ns, _, hns, _, rfl⟩ := ofCreate_ok hp
  obtain ⟨m, ms, _, hms, _, rfl⟩ := ofCreate_ok hq
  exact congrArg (fun o => [o]) (outline_insertion_congr (length_of_keys hns hms hdata) rfl)

private theorem sameOutlines_update {data data' : Fields} {filter filter' : Option Fields}
    (hdata : data.map (·.2) = data'.map (·.2))
    (hfilter : (filter.getD []).map (·.2) = (filter'.getD []).map (·.2))
    (hp : ofUpdate t data filter = .ok p) (hq : ofUpdate u data' filter' = .ok q) :
    SameOutlines p q := by
  obtain ⟨n, ns, f, _, hns, _, _, hf, rfl⟩ := ofUpdate_ok hp
  obtain ⟨m, ms, g, _, hms, _, _, hg, rfl⟩ := ofUpdate_ok hq
  refine congrArg (fun o => [o]) ?_
  simp only [updating, outline_append, outline_cons, veil_name,
    outline_clause_congr (tests_congr hf hg hfilter),
    outline_assignments_congr (length_of_keys hns hms hdata)]

private theorem sameOutlines_delete {filter filter' : Option Fields}
    (hfilter : (filter.getD []).map (·.2) = (filter'.getD []).map (·.2))
    (hp : ofDelete t filter = .ok p) (hq : ofDelete u filter' = .ok q) : SameOutlines p q := by
  obtain ⟨n, f, _, _, hf, rfl⟩ := ofDelete_ok hp
  obtain ⟨m, g, _, _, hg, rfl⟩ := ofDelete_ok hq
  refine congrArg (fun o => [o]) ?_
  simp only [deleting, outline_cons, veil_name,
    outline_clause_congr (tests_congr hf hg hfilter)]

private theorem sameOutlines_bulkInsert {records records' : List Fields}
    (hrecords : (records.map fun row => row.map (·.2)) = records'.map fun row => row.map (·.2))
    (hp : ofBulkInsert t records = .ok p) (hq : ofBulkInsert u records' = .ok q) :
    SameOutlines p q := by
  obtain ⟨n, ns, first, rest, rfl, _, hns, _, _, rfl⟩ := ofBulkInsert_ok hp
  obtain ⟨m, ms, first', rest', rfl, _, hms, _, _, rfl⟩ := ofBulkInsert_ok hq
  have hcount := congrArg List.length hrecords
  rw [List.length_map, List.length_map] at hcount
  have hlength := length_of_keys hns hms (List.cons.inj hrecords).1
  exact congrArg (fun o => [o]) (outline_insertion_congr hlength hcount)

private theorem sameOutlines_addColumn {column column' : NamedColumn}
    {position position' : Option Placement} (hspec : column.spec = column'.spec)
    (hposition : position.map veilPlacement = position'.map veilPlacement)
    (hp : ofAddColumn t column position = .ok p) (hq : ofAddColumn u column' position' = .ok q) :
    SameOutlines p q := by
  obtain ⟨n, definition, ns, _, hdefinition, hns, rfl⟩ := ofAddColumn_ok hp
  obtain ⟨m, definition', ms, _, hdefinition', hms, rfl⟩ := ofAddColumn_ok hq
  rw [hspec] at hdefinition
  refine congrArg (fun o => [o]) ?_
  simp only [alterTable, outline_append, outline_cons, veil_name,
    outline_placing_congr hns hms hposition, outline_define_congr hdefinition hdefinition']

private theorem sameOutlines_dropColumn {column column' : String}
    (hp : ofDropColumn t column = .ok p)
    (hq : ofDropColumn u column' = .ok q) : SameOutlines p q := by
  obtain ⟨n, c, _, _, rfl⟩ := ofDropColumn_ok hp
  obtain ⟨m, d, _, _, rfl⟩ := ofDropColumn_ok hq
  rfl

private theorem sameOutlines_modifyColumn {column column' : String} {spec : ColumnSpec}
    (hp : ofModifyColumn t column spec = .ok p) (hq : ofModifyColumn u column' spec = .ok q) :
    SameOutlines p q := by
  obtain ⟨n, c, definition, _, _, hdefinition, rfl⟩ := ofModifyColumn_ok hp
  obtain ⟨m, d, definition', _, _, hdefinition', rfl⟩ := ofModifyColumn_ok hq
  refine congrArg (fun o => [o]) ?_
  simp only [alterTable, outline_append, outline_cons, veil_name,
    outline_define_congr hdefinition hdefinition']

private theorem sameOutlines_renameColumn {old old' new new' : String} {spec : Option ColumnSpec}
    (hp : ofRenameColumn t old new spec = .ok p) (hq : ofRenameColumn u old' new' spec = .ok q) :
    SameOutlines p q := by
  obtain ⟨n, o, c, change, _, _, _, hchange, rfl⟩ := ofRenameColumn_ok hp
  obtain ⟨m, o', d, change', _, _, _, hchange', rfl⟩ := ofRenameColumn_ok hq
  refine congrArg (fun o => [o]) ?_
  simp only [alterTable, outline_append, outline_cons, veil_name,
    outline_renameChange_congr hchange hchange']

private theorem sameOutlines_renameTable {old old' new new' : String}
    (hp : ofRenameTable old new = .ok p) (hq : ofRenameTable old' new' = .ok q) :
    SameOutlines p q := by
  obtain ⟨o, n, _, _, _, _, rfl⟩ := ofRenameTable_ok hp
  obtain ⟨o', m, _, _, _, _, rfl⟩ := ofRenameTable_ok hq
  rfl

private theorem sameOutlines_addIndex {r r' : IndexRequest}
    (hcolumns : r.columns.length = r'.columns.length) (hmethod : r.method = r'.method)
    (hunique : r.unique = r'.unique) (hp : ofAddIndex r = .ok p) (hq : ofAddIndex r' = .ok q) :
    SameOutlines p q := by
  obtain ⟨t, n, ns, words, _, _, hns, hwords, rfl⟩ := ofAddIndex_ok hp
  obtain ⟨u, m, ms, words', _, _, hms, hwords', rfl⟩ := ofAddIndex_ok hq
  rw [hmethod, hunique] at hwords
  cases hwords.symm.trans hwords'
  have hlength : ns.length = ms.length := by
    rw [length_of_texts hns, length_of_texts hms, hcolumns]
  refine congrArg (fun o => [o]) ?_
  simp only [outline_append, outline_cons, veil_name, outline_names_congr hlength]

private theorem sameOutlines_dropIndex {name name' : String} (hp : ofDropIndex t name = .ok p)
    (hq : ofDropIndex u name' = .ok q) : SameOutlines p q := by
  obtain ⟨n, i, _, _, rfl⟩ := ofDropIndex_ok hp
  obtain ⟨m, j, _, _, rfl⟩ := ofDropIndex_ok hq
  rfl

end

theorem sameOutlines_of_sameButNames {a b : Operation} {p q : Plan} (h : SameButNames a b)
    (hp : ofSimple a = .ok p) (hq : ofSimple b = .ok q) : SameOutlines p q := by
  cases h with
  | read hcolumns hfilter hordering hlimit hoffset =>
    exact sameOutlines_read hcolumns hfilter hordering hlimit hoffset hp hq
  | create hdata => exact sameOutlines_create hdata hp hq
  | update hdata hfilter => exact sameOutlines_update hdata hfilter hp hq
  | delete hfilter => exact sameOutlines_delete hfilter hp hq
  | bulkInsert hrecords => exact sameOutlines_bulkInsert hrecords hp hq
  | addColumn hspec hposition => exact sameOutlines_addColumn hspec hposition hp hq
  | dropColumn => exact sameOutlines_dropColumn hp hq
  | modifyColumn => exact sameOutlines_modifyColumn hp hq
  | renameColumn => exact sameOutlines_renameColumn hp hq
  | renameTable => exact sameOutlines_renameTable hp hq
  | addIndex hcolumns hmethod hunique => exact sameOutlines_addIndex hcolumns hmethod hunique hp hq
  | dropIndex => exact sameOutlines_dropIndex hp hq

end QueryGateway.Proofs.Plan.Drafting
