import Mathlib.Data.Prod.Basic
import QueryGateway.Proofs.Plan.Rows

/-!
Values are parameters. Two operations that differ only in their values compile to statements of the
same text, so no value reaches the text of a statement.
-/

set_option autoImplicit false
set_option relaxedAutoImplicit false

namespace QueryGateway.Proofs.Plan.Parameters

open QueryGateway.Sql
open QueryGateway.Plan
open QueryGateway.Proofs.Plan.Parts
open QueryGateway.Proofs.Sql.Names
open QueryGateway.Proofs.Plan.Rows

/-- What the text of a filter shows of a value. -/
inductive Shape
  | missing
  | single
  | several (count : Nat)
  deriving DecidableEq, Repr

def shapeOf : Value → Shape
  | .null => .missing
  | .list vs => .several vs.length
  | .tuple vs => .several vs.length
  | _ => .single

/-- The columns of a filter with the shapes of their values. -/
def outline (filter : Option Fields) : List (String × Shape) :=
  (filter.getD []).map fun e => (e.1, shapeOf e.2)

/-- Operations on rows that differ in nothing but values: those of rows, and those of filters as
far as they keep their shapes. -/
inductive SameButValues : Operation → Operation → Prop
  | read {r q : ReadRequest} : r.table = q.table → r.columns = q.columns →
      outline r.filter = outline q.filter → r.ordering = q.ordering → r.limit = q.limit →
      r.offset = q.offset → SameButValues (.read r) (.read q)
  | create {table : String} {data data' : Fields} : data.keys = data'.keys →
      SameButValues (.create table data) (.create table data')
  | update {table : String} {data data' : Fields} {filter filter' : Option Fields} :
      data.keys = data'.keys → outline filter = outline filter' →
      SameButValues (.update table data filter) (.update table data' filter')
  | delete {table : String} {filter filter' : Option Fields} : outline filter = outline filter' →
      SameButValues (.delete table filter) (.delete table filter')
  | bulkInsert {table : String} {first first' : Fields} {rest rest' : List Fields} :
      first.keys = first'.keys → rest.length = rest'.length →
      SameButValues (.bulkInsert table (first :: rest)) (.bulkInsert table (first' :: rest'))

/-- Operations that differ in nothing but values, transactions step by step. -/
inductive Alike : Operation → Operation → Prop
  | simple {a b : Operation} : SameButValues a b → Alike a b
  | transaction {steps steps' : List TransactionStep} :
      List.Forall₂ (fun s t => ∃ a b, operationOf s = .ok a ∧ operationOf t = .ok b ∧
        SameButValues a b) steps steps' →
      Alike (.transaction steps) (.transaction steps')

/-- Statements that differ in nothing but their parameters. -/
structure SameText (s t : Statement) : Prop where
  sql : s.sql = t.sql
  description : s.description = t.description
  prechecks : s.prechecks = t.prechecks
  returnsRows : s.returnsRows = t.returnsRows

/-! ## Filters -/

private def testText : Shape → List Fragment
  | .missing => [.words " IS NULL"]
  | .single => [.words " = ", .mark]
  | .several count => .words " IN " :: Fragment.marks count

/-- What the text of a condition shows of its test. -/
private def testShape : Test → Shape
  | .isNull => .missing
  | .equals _ => .single
  | .among vs => .several vs.length

private def conditionShape (c : Condition) : Name × Shape := (c.column, testShape c.test)

private theorem conditionText_eq (c : Condition) :
    Filter.conditionText c = .name (conditionShape c).1 :: testText (conditionShape c).2 := by
  obtain ⟨column, test⟩ := c
  cases test <;> rfl

private theorem testShape_testFor (v : Value) : testShape (testFor v) = shapeOf v := by
  cases v <;> rfl

private theorem shapes_of_ofFields {filter : Option Fields} {f : Filter}
    (h : Filter.ofFields (filter.getD []) = .ok f) :
    (f.map conditionShape).map (Prod.map Name.text id) = outline filter := by
  have htests := congrArg (List.map (Prod.map id testShape)) (ofFields_ok h).1
  rw [List.map_map, List.map_map] at htests
  rw [List.map_map, outline]
  refine htests.trans (List.map_congr_left fun e _ => ?_)
  exact congrArg (e.1, ·) (testShape_testFor e.2)

private theorem map_conditionText_eq {a b : Option Fields} {f g : Filter}
    (hf : Filter.ofFields (a.getD []) = .ok f) (hg : Filter.ofFields (b.getD []) = .ok g)
    (h : outline a = outline b) : f.map Filter.conditionText = g.map Filter.conditionText := by
  have hinjective : Function.Injective (Prod.map Name.text (id : Shape → Shape)) :=
    Function.Injective.prodMap (fun _ _ => text_injective) Function.injective_id
  have hshapes : f.map conditionShape = g.map conditionShape := by
    refine List.map_injective_iff.mpr hinjective ?_
    rw [shapes_of_ofFields hf, shapes_of_ofFields hg, h]
  have htext : Filter.conditionText =
      (fun s : Name × Shape => .name s.1 :: testText s.2) ∘ conditionShape :=
    funext conditionText_eq
  rw [htext, ← List.map_map, ← List.map_map, hshapes]

private theorem clause_eq {a b : Option Fields} {f g : Filter}
    (hf : Filter.ofFields (a.getD []) = .ok f) (hg : Filter.ofFields (b.getD []) = .ok g)
    (h : outline a = outline b) : f.clause = g.clause ∧ filtering f = filtering g := by
  have hmap := map_conditionText_eq hf hg h
  have hempty : f.isEmpty = g.isEmpty := by
    rw [← List.isEmpty_map (f := Filter.conditionText), hmap, List.isEmpty_map]
  have hclause : f.clause = g.clause := by simp only [Filter.clause, hempty, hmap]
  exact ⟨hclause, by simp only [filtering, hempty, hclause]⟩

/-! ## Statements -/

private theorem sameText_of_fragments {s t : Statement} (hf : s.fragments = t.fragments)
    (hd : s.description = t.description) (hp : s.prechecks = t.prechecks)
    (hr : s.returnsRows = t.returnsRows) : SameText s t :=
  ⟨by rw [Statement.sql, Statement.sql, hf], hd, hp, hr⟩

private theorem terms_injective {ts us : List OrderTerm}
    (h : ts.map (fun t => (t.column.text, t.direction)) =
      us.map fun t => (t.column.text, t.direction)) : ts = us := by
  refine List.map_injective_iff.mpr (fun t u htu => ?_) h
  obtain ⟨column, direction⟩ := t
  obtain ⟨hcolumn, hdirection⟩ := Prod.mk.inj htu
  cases text_injective hcolumn
  cases hdirection
  rfl

private theorem sameText_read {r q : ReadRequest} {p p' : Plan} (htable : r.table = q.table)
    (hcolumns : r.columns = q.columns) (hfilter : outline r.filter = outline q.filter)
    (hordering : r.ordering = q.ordering) (hlimit : r.limit = q.limit)
    (hoffset : r.offset = q.offset) (hp : ofRead r = .ok p) (hp' : ofRead q = .ok p') :
    List.Forall₂ SameText p.statements p'.statements := by
  obtain ⟨t, ns, f, terms, ht, hns, hf, hterms, _, _, rfl⟩ := ofRead_ok hp
  obtain ⟨t', ns', f', terms', ht', hns', hf', hterms', _, _, rfl⟩ := ofRead_ok hp'
  have hname : t = t' := text_injective (by rw [ht, ht', htable])
  have hnames : ns = ns' := map_text_injective (by rw [hns, hns', hcolumns])
  have hsame : terms = terms' := terms_injective (by rw [hterms, hterms', hordering])
  have hclause := (clause_eq hf hf' hfilter).2
  refine .cons (sameText_of_fragments ?_ ?_ rfl rfl) .nil
  · change reading t ns f _ _ _ = reading t' ns' f' _ _ _
    rw [reading, reading, hname, hnames, hclause, hsame, hlimit, hoffset]
  · change "Read from table '" ++ t.text ++ "'" = "Read from table '" ++ t'.text ++ "'"
    rw [hname]

private theorem sameText_create {table : String} {data data' : Fields} {p p' : Plan}
    (hkeys : data.keys = data'.keys) (hp : ofCreate table data = .ok p)
    (hp' : ofCreate table data' = .ok p') :
    List.Forall₂ SameText p.statements p'.statements := by
  obtain ⟨t, ns, ht, hns, _, rfl⟩ := ofCreate_ok hp
  obtain ⟨t', ns', ht', hns', _, rfl⟩ := ofCreate_ok hp'
  have hname : t = t' := text_injective (by rw [ht, ht'])
  have hnames : ns = ns' := map_text_injective (by rw [hns, hns', hkeys])
  subst hname hnames
  exact .cons (sameText_of_fragments rfl rfl rfl rfl) .nil

private theorem sameText_update {table : String} {data data' : Fields}
    {filter filter' : Option Fields} {p p' : Plan} (hkeys : data.keys = data'.keys)
    (hfilter : outline filter = outline filter') (hp : ofUpdate table data filter = .ok p)
    (hp' : ofUpdate table data' filter' = .ok p') :
    List.Forall₂ SameText p.statements p'.statements := by
  obtain ⟨t, ns, f, ht, hns, _, _, hf, rfl⟩ := ofUpdate_ok hp
  obtain ⟨t', ns', f', ht', hns', _, _, hf', rfl⟩ := ofUpdate_ok hp'
  have hname : t = t' := text_injective (by rw [ht, ht'])
  have hnames : ns = ns' := map_text_injective (by rw [hns, hns', hkeys])
  have hclause := (clause_eq hf hf' hfilter).1
  subst hname hnames
  refine .cons (sameText_of_fragments ?_ rfl rfl rfl) .nil
  change updating t ns f = updating t ns f'
  rw [updating, updating, hclause]

private theorem sameText_delete {table : String} {filter filter' : Option Fields} {p p' : Plan}
    (hfilter : outline filter = outline filter') (hp : ofDelete table filter = .ok p)
    (hp' : ofDelete table filter' = .ok p') :
    List.Forall₂ SameText p.statements p'.statements := by
  obtain ⟨t, f, ht, _, hf, rfl⟩ := ofDelete_ok hp
  obtain ⟨t', f', ht', _, hf', rfl⟩ := ofDelete_ok hp'
  have hname : t = t' := text_injective (by rw [ht, ht'])
  have hclause := (clause_eq hf hf' hfilter).1
  subst hname
  refine .cons (sameText_of_fragments ?_ rfl rfl rfl) .nil
  change deleting t f = deleting t f'
  rw [deleting, deleting, hclause]

private theorem sameText_bulkInsert {table : String} {first first' : Fields}
    {rest rest' : List Fields} {p p' : Plan} (hkeys : first.keys = first'.keys)
    (hlength : rest.length = rest'.length) (hp : ofBulkInsert table (first :: rest) = .ok p)
    (hp' : ofBulkInsert table (first' :: rest') = .ok p') :
    List.Forall₂ SameText p.statements p'.statements := by
  obtain ⟨t, ns, _, _, hrecords, ht, hns, _, _, rfl⟩ := ofBulkInsert_ok hp
  obtain ⟨t', ns', _, _, hrecords', ht', hns', _, _, rfl⟩ := ofBulkInsert_ok hp'
  obtain ⟨rfl, rfl⟩ := List.cons.inj hrecords
  obtain ⟨rfl, rfl⟩ := List.cons.inj hrecords'
  have hname : t = t' := text_injective (by rw [ht, ht'])
  have hnames : ns = ns' := map_text_injective (by rw [hns, hns', hkeys])
  have hcount : (first :: rest).length = (first' :: rest').length := by
    rw [List.length_cons, List.length_cons, hlength]
  subst hname hnames
  refine .cons (sameText_of_fragments ?_ ?_ rfl rfl) .nil
  · change insertion t ns (first :: rest).length = insertion t ns (first' :: rest').length
    rw [hcount]
  · change "Bulk insert " ++ toString (first :: rest).length ++ " records into table '" ++ t.text ++
      "'" = "Bulk insert " ++ toString (first' :: rest').length ++ " records into table '" ++
      t.text ++ "'"
    rw [hcount]

private theorem sameText_simple {a b : Operation} {p q : Plan} (h : SameButValues a b)
    (hp : ofSimple a = .ok p) (hq : ofSimple b = .ok q) :
    List.Forall₂ SameText p.statements q.statements := by
  cases h with
  | read htable hcolumns hfilter hordering hlimit hoffset =>
    exact sameText_read htable hcolumns hfilter hordering hlimit hoffset hp hq
  | create hkeys => exact sameText_create hkeys hp hq
  | update hkeys hfilter => exact sameText_update hkeys hfilter hp hq
  | delete hfilter => exact sameText_delete hfilter hp hq
  | bulkInsert hkeys hlength => exact sameText_bulkInsert hkeys hlength hp hq

/-! ## Transactions -/

private theorem sameText_stepStatement (number : Nat) {s t : Statement} (h : SameText s t) :
    SameText (stepStatement number s) (stepStatement number t) :=
  ⟨h.sql, congrArg (fun d => "Step " ++ toString number ++ ": " ++ d) h.description, h.prechecks,
    h.returnsRows⟩

private theorem sameText_steps {number : Nat} {steps steps' : List TransactionStep}
    {ss ss' : List Statement}
    (h : List.Forall₂ (fun s t => ∃ a b, operationOf s = .ok a ∧ operationOf t = .ok b ∧
      SameButValues a b) steps steps')
    (hs : Stepwise number steps ss) (hs' : Stepwise number steps' ss') :
    List.Forall₂ SameText ss ss' := by
  induction h generalizing number ss ss' with
  | nil =>
    cases hs
    cases hs'
    exact .nil
  | cons hab _ ih =>
    cases hs with
    | cons hp hrest =>
      cases hs' with
      | cons hp' hrest' =>
        obtain ⟨a, b, ha, hb, hab⟩ := hab
        obtain ⟨a', ha', _, hp⟩ := ofStep_ok hp
        obtain ⟨b', hb', _, hp'⟩ := ofStep_ok hp'
        cases ha.symm.trans ha'
        cases hb.symm.trans hb'
        refine List.rel_append ?_ (ih hrest hrest')
        rw [List.forall₂_map_left_iff, List.forall₂_map_right_iff]
        exact (sameText_simple hab hp hp').imp fun _ _ => sameText_stepStatement number

private theorem ofOperation_eq_ofSimple {a b : Operation} (h : SameButValues a b) :
    ofOperation a = ofSimple a ∧ ofOperation b = ofSimple b := by
  cases h <;> exact ⟨rfl, rfl⟩

/-- Operations that differ in nothing but values compile to statements that differ in nothing but
parameters, one for one. -/
theorem sameText_of_alike {a b : Operation} {p q : Plan} (h : Alike a b)
    (hp : ofOperation a = .ok p) (hq : ofOperation b = .ok q) :
    List.Forall₂ SameText p.statements q.statements := by
  cases h with
  | simple h =>
    rw [(ofOperation_eq_ofSimple h).1] at hp
    rw [(ofOperation_eq_ofSimple h).2] at hq
    exact sameText_simple h hp hq
  | transaction h =>
    obtain ⟨ss, hss, rfl⟩ := ofTransaction_ok hp
    obtain ⟨ss', hss', rfl⟩ := ofTransaction_ok hq
    exact sameText_steps h hss hss'

/-- An update by a text that tries to break out of its quotes has the text of one by a null. -/
theorem sameText_hostile_update :
    let hostile : Operation := .update "t" [("a", .text "x'; --")] (some [("b", .list [.int 1])])
    let plain : Operation := .update "t" [("a", .null)] (some [("b", .tuple [.text "z"])])
    ∃ p q : Plan, ofOperation hostile = .ok p ∧ ofOperation plain = .ok q ∧
      List.Forall₂ SameText p.statements q.statements := by
  intro hostile plain
  have h : Alike hostile plain := .simple (.update rfl rfl)
  exact ⟨_, _, rfl, rfl, sameText_of_alike h rfl rfl⟩

end QueryGateway.Proofs.Plan.Parameters
