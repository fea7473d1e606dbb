import QueryGateway.Proofs.Plan.Rows
import QueryGateway.Proofs.Plan.Schema
import QueryGateway.Proofs.Sql.TypeForms
import QueryGateway.Proofs.Sql.Wordings

/-!
The clauses of statements as fragments: they are read one by one, they hold the names that they were
made of and a mark for each parameter, and apart from these names they depend on nothing else of
their columns.
-/

set_option autoImplicit false
set_option relaxedAutoImplicit false

namespace QueryGateway.Proofs.Plan.Clauses

open QueryGateway.Sql
open QueryGateway.Plan
open QueryGateway.Proofs.Plan.Parts
open QueryGateway.Proofs.Plan.Rows
open QueryGateway.Proofs.Plan.Schema
open QueryGateway.Proofs.Sql.Fragments
open QueryGateway.Proofs.Sql.Sentences
open QueryGateway.Proofs.Sql.TypeForms (spelled_of_ofValue)
open QueryGateway.Proofs.Sql.Wordings

/-! ## Filters -/

private theorem legible_condition (c : Condition) : Legible (Filter.conditionText c) := by
  unfold Filter.conditionText
  cases c.test with
  | isNull => exact (trails_only (isWording_of_check rfl) rfl).name c.column
  | equals v =>
    exact ((isLead_of_check rfl).trails rfl trails_nil.mark).name c.column
  | among vs =>
    exact ((isLead_of_check rfl).trails rfl (legible_marks vs.length)).name c.column

private theorem legible_clause (f : Filter) : Legible f.clause := by
  unfold Filter.clause
  split
  · exact legible_nil
  · refine (isLead_of_check rfl).before (legible_separated (isLead_of_check rfl) rfl ?_)
    intro p hp
    obtain ⟨c, _, rfl⟩ := List.mem_map.mp hp
    exact legible_condition c

private theorem trails_filtering (f : Filter) : Trails (filtering f) := by
  unfold filtering
  split
  · exact trails_nil
  · exact (isLead_of_check rfl).trails rfl (legible_clause f)

@[simp]
private theorem count_condition (c : Condition) :
    (Filter.conditionText c).count .mark = (Filter.conditionParams c).length := by
  unfold Filter.conditionText Filter.conditionParams
  cases c.test <;> simp

/-- A filter has a mark for each of its parameters. -/
@[simp]
private theorem count_clause (f : Filter) : f.clause.count .mark = f.params.length := by
  unfold Filter.clause
  split
  · rename_i h
    rw [List.isEmpty_iff.mp h]
    rfl
  · simp [Filter.params, List.length_flatMap, List.count_flatten, Function.comp_def]

@[simp]
private theorem count_filtering (f : Filter) : (filtering f).count .mark = f.params.length := by
  unfold filtering
  split
  · rename_i h
    rw [List.isEmpty_iff.mp h]
    rfl
  · simp

@[simp]
private theorem namesIn_condition (c : Condition) : namesIn (Filter.conditionText c) =
    [c.column] := by
  unfold Filter.conditionText
  cases c.test <;> simp

@[simp]
private theorem namesIn_clause (f : Filter) : namesIn f.clause = f.map Condition.column := by
  unfold Filter.clause
  split
  · rename_i h
    rw [List.isEmpty_iff.mp h]
    rfl
  · simp [List.flatMap_map, ← List.map_eq_flatMap]

@[simp]
private theorem namesIn_filtering (f : Filter) :
    namesIn (filtering f) = f.map Condition.column := by
  unfold filtering
  split
  · rename_i h
    rw [List.isEmpty_iff.mp h]
    rfl
  · simp

theorem columns_of_ofFields {fields : Fields} {f : Filter} (h : Filter.ofFields fields = .ok f) :
    (f.map Condition.column).map Name.text = fields.keys := by
  have hmap := congrArg (List.map Prod.fst) (ofFields_ok h).1
  simpa [Fields.keys, Function.comp_def] using hmap

theorem tests_of_ofFields {fields : Fields} {f : Filter} (h : Filter.ofFields fields = .ok f) :
    f.map Condition.test = (fields.map (·.2)).map testFor := by
  have hmap := congrArg (List.map Prod.snd) (ofFields_ok h).1
  simpa [Function.comp_def] using hmap

private theorem outline_conditions_congr {f g : Filter}
    (h : f.map Condition.test = g.map Condition.test) :
    (f.map Filter.conditionText).map outline = (g.map Filter.conditionText).map outline := by
  induction f generalizing g with
  | nil =>
    cases g with
    | nil => rfl
    | cons c g => cases h
  | cons c f ih =>
    cases g with
    | nil => cases h
    | cons d g =>
      obtain ⟨htest, hrest⟩ := List.cons.inj h
      simp only [List.map_cons, ih hrest]
      simp [Filter.conditionText, htest]

theorem outline_clause_congr {f g : Filter} (h : f.map Condition.test = g.map Condition.test) :
    outline f.clause = outline g.clause := by
  have hempty : f.isEmpty = g.isEmpty := by
    rw [← List.isEmpty_map (f := Condition.test), h, List.isEmpty_map]
  unfold Filter.clause
  rw [hempty]
  split
  · rfl
  · rw [outline_cons, outline_cons, outline_separated, outline_separated,
      outline_conditions_congr h]

theorem outline_filtering_congr {f g : Filter} (h : f.map Condition.test = g.map Condition.test) :
    outline (filtering f) = outline (filtering g) := by
  have hempty : f.isEmpty = g.isEmpty := by
    rw [← List.isEmpty_map (f := Condition.test), h, List.isEmpty_map]
  unfold filtering
  rw [hempty]
  split
  · rfl
  · rw [outline_cons, outline_cons, outline_clause_congr h]

/-! ## Readings -/

private theorem legible_selection (ns : List Name) : Legible (selection ns) := by
  unfold selection
  split
  · exact trails_nil.words (isWording_of_check rfl)
  · exact legible_names ns

@[simp]
private theorem count_selection (ns : List Name) : (selection ns).count .mark = 0 := by
  unfold selection
  split
  · rfl
  · exact count_names ns

@[simp]
private theorem namesIn_selection (ns : List Name) : namesIn (selection ns) = ns := by
  unfold selection
  split
  · rename_i h
    rw [List.isEmpty_iff.mp h]
    rfl
  · exact namesIn_names ns

theorem outline_selection_congr {ms ns : List Name} (h : ms.length = ns.length) :
    outline (selection ms) = outline (selection ns) := by
  have hempty : ms.isEmpty = ns.isEmpty := by
    rw [Bool.eq_iff_iff, List.isEmpty_iff_length_eq_zero, List.isEmpty_iff_length_eq_zero, h]
  unfold selection
  rw [hempty]
  split
  · rfl
  · exact outline_names_congr h

private theorem legible_term (t : OrderTerm) : Legible t.fragments := by
  unfold OrderTerm.fragments
  cases t.direction with
  | none => exact trails_nil.name t.column
  | some d => cases d <;> exact (trails_only (isWording_of_check rfl) rfl).name t.column

private theorem trails_sorting (terms : List OrderTerm) : Trails (sorting terms) := by
  unfold sorting
  split
  · exact trails_nil
  · refine (isLead_of_check rfl).trails rfl (legible_separated (isLead_of_check rfl) rfl ?_)
    intro p hp
    obtain ⟨t, _, rfl⟩ := List.mem_map.mp hp
    exact legible_term t

@[simp]
private theorem count_term (t : OrderTerm) : t.fragments.count .mark = 0 := by
  unfold OrderTerm.fragments
  cases t.direction with
  | none => rfl
  | some d => cases d <;> rfl

@[simp]
private theorem count_sorting (terms : List OrderTerm) : (sorting terms).count .mark = 0 := by
  unfold sorting
  split
  · rfl
  · simp [OrderTerm.listFragments, List.count_flatten, Function.comp_def]

@[simp]
private theorem namesIn_term (t : OrderTerm) : namesIn t.fragments = [t.column] := by
  unfold OrderTerm.fragments
  cases t.direction with
  | none => rfl
  | some d => cases d <;> rfl

@[simp]
private theorem namesIn_sorting (terms : List OrderTerm) :
    namesIn (sorting terms) = terms.map OrderTerm.column := by
  unfold sorting
  split
  · rename_i h
    rw [List.isEmpty_iff.mp h]
    rfl
  · simp [OrderTerm.listFragments, List.flatMap_map, ← List.map_eq_flatMap]

theorem outline_sorting_congr {ts us : List OrderTerm}
    (h : ts.map OrderTerm.direction = us.map OrderTerm.direction) :
    outline (sorting ts) = outline (sorting us) := by
  have hempty : ts.isEmpty = us.isEmpty := by
    rw [← List.isEmpty_map (f := OrderTerm.direction), h, List.isEmpty_map]
  have hparts : (ts.map OrderTerm.fragments).map outline =
      (us.map OrderTerm.fragments).map outline := by
    clear hempty
    induction ts generalizing us with
    | nil =>
      cases us with
      | nil => rfl
      | cons u us => cases h
    | cons t ts ih =>
      cases us with
      | nil => cases h
      | cons u us =>
        obtain ⟨hdirection, hrest⟩ := List.cons.inj h
        simp only [List.map_cons, ih hrest]
        simp [OrderTerm.fragments, hdirection]
  unfold sorting
  rw [hempty]
  split
  · rfl
  · rw [outline_cons, outline_cons, OrderTerm.listFragments, OrderTerm.listFragments,
      outline_separated, outline_separated, hparts]

private theorem trails_window (limit offset : Option Int) : Trails (window limit offset) := by
  have hlimit : ∀ {fs : List Fragment} (n : Int), Trails fs → Trails (numbered " LIMIT " n :: fs) :=
    fun n h => (isWording_numbered rfl n).trails (isParted_words (by decide) rfl) h
  have hoffset : ∀ n : Int, Trails [numbered " OFFSET " n] :=
    fun n => trails_only (isWording_numbered rfl n) (isParted_words (by decide) rfl)
  unfold window
  split
  · exact trails_nil
  · exact hlimit _ trails_nil
  · split
    · exact trails_nil
    · exact hlimit _ (hoffset _)
  · split
    · exact hlimit _ trails_nil
    · exact hlimit _ (hoffset _)

@[simp]
private theorem count_window (limit offset : Option Int) :
    (window limit offset).count .mark = 0 := by
  unfold window
  split
  · rfl
  · rfl
  · split <;> rfl
  · split <;> rfl

@[simp]
private theorem namesIn_window (limit offset : Option Int) : namesIn (window limit offset) =
    [] := by
  unfold window
  split
  · rfl
  · rfl
  · split <;> rfl
  · split <;> rfl

/-! ## Statements on rows -/

theorem legible_reading (t : Name) (ns : List Name) (f : Filter) (terms : List OrderTerm)
    (limit offset : Option Int) : Legible (reading t ns f terms limit offset) := by
  have hback : Trails (filtering f ++ sorting terms ++ window limit offset) :=
    ((trails_filtering f).append (trails_sorting terms)).append (trails_window limit offset)
  have hfrom : Trails (.words " FROM " :: .name t ::
      (filtering f ++ sorting terms ++ window limit offset)) :=
    (isLead_of_check rfl).trails rfl (hback.name t)
  have hselect : Legible (.words "SELECT " :: (selection ns ++ .words " FROM " :: .name t ::
      (filtering f ++ sorting terms ++ window limit offset))) :=
    (isLead_of_check rfl).before ((legible_selection ns).append hfrom)
  simpa [reading] using hselect

theorem count_reading (t : Name) (ns : List Name) (f : Filter) (terms : List OrderTerm)
    (limit offset : Option Int) :
    (reading t ns f terms limit offset).count .mark = f.params.length := by
  simp [reading]

theorem legible_insertion (t : Name) (ns : List Name) (count : Nat) :
    Legible (insertion t ns count) := by
  have hrows : Legible
      (Fragment.separated "," (List.replicate count (Fragment.marks ns.length))) := by
    refine legible_separated (isLead_of_check rfl) rfl fun p hp => ?_
    rw [List.eq_of_mem_replicate hp]
    exact legible_marks ns.length
  have hvalues := (legible_names ns).append
    ((isLead_of_check (s := ") VALUES ") rfl).trails rfl hrows)
  have hcolumns := (isLead_of_check (s := " (") rfl).trails rfl hvalues
  exact (isLead_of_check rfl).before (hcolumns.name t)

theorem count_insertion (t : Name) (ns : List Name) (count : Nat) :
    (insertion t ns count).count .mark = count * ns.length := by
  simp [insertion, List.count_flatten]

theorem legible_updating (t : Name) (ns : List Name) (f : Filter) : Legible (updating t ns f) := by
  have hassignments : Legible (Fragment.separated ", " (ns.map assignment)) := by
    refine legible_separated (isLead_of_check rfl) rfl fun p hp => ?_
    obtain ⟨n, _, rfl⟩ := List.mem_map.mp hp
    exact ((isLead_of_check rfl).trails rfl trails_nil.mark).name n
  have hclause := hassignments.append
    ((isLead_of_check (s := " ") rfl).trails rfl (legible_clause f))
  have hset := (isLead_of_check (s := " SET ") rfl).trails rfl hclause
  exact (isLead_of_check rfl).before (hset.name t)

theorem count_updating (t : Name) (ns : List Name) (f : Filter) :
    (updating t ns f).count .mark = ns.length + f.params.length := by
  have hassignment : ∀ n : Name, (assignment n).count .mark = 1 := fun _ => rfl
  simp [updating, List.count_flatten, Function.comp_def, hassignment]

theorem legible_deleting (t : Name) (f : Filter) : Legible (deleting t f) := by
  have hclause := (isLead_of_check (s := " ") rfl).trails rfl (legible_clause f)
  exact (isLead_of_check rfl).before (hclause.name t)

theorem count_deleting (t : Name) (f : Filter) :
    (deleting t f).count .mark = f.params.length := by
  simp [deleting]

/-! ## Statements on the schema -/

private theorem trails_nullability (nullable : Option Bool) :
    Trails (ColumnSpec.nullability nullable) := by
  match nullable with
  | none => exact trails_nil
  | some true => exact trails_only (isWording_of_check rfl) rfl
  | some false => exact trails_only (isWording_of_check rfl) rfl

private theorem trails_defaultClause {default : Option Value} {fs : List Fragment}
    (h : ColumnSpec.defaultClause default = .ok fs) : Trails fs := by
  rcases defaultClause_ok h with ⟨_, rfl⟩ | ⟨v, f, _, hf, rfl⟩
  · exact trails_nil
  · rcases default_cases hf with ⟨s, hs, rfl⟩ | ⟨content, rfl⟩
    · exact (isLead_of_check rfl).trails rfl (trails_nil.words hs)
    · exact (isLead_of_check rfl).trails rfl (trails_nil.literal content)

private theorem trails_numbering (auto : Bool) : Trails (numbering auto) := by
  cases auto with
  | false => exact trails_nil
  | true => exact trails_only (isWording_of_check rfl) rfl

private theorem trails_commentClause {comment : Option String} {fs : List Fragment}
    (h : ColumnSpec.commentClause comment = .ok fs) : Trails fs := by
  rcases commentClause_ok h with ⟨_, rfl⟩ | ⟨s, _, rfl⟩
  · exact trails_nil
  · exact (isLead_of_check rfl).trails rfl (trails_nil.literal _)

theorem legible_define {spec : ColumnSpec} {column : String} {fs : List Fragment}
    (h : spec.define (.text column) = .ok fs) : Legible fs := by
  obtain ⟨n, type, default, comment, _, htype, hdefault, hcomment, rfl⟩ := define_ok h
  have htyped : Trails [.words (" " ++ type.text)] :=
    trails_only (isWording_type (spelled_of_ofValue htype)) (isParted_words (by decide) rfl)
  have hvalue := (trails_nullability spec.nullable).append (trails_defaultClause hdefault)
  have hback := (hvalue.append (trails_numbering spec.autoIncrement)).append
    (trails_commentClause hcomment)
  have hall := (htyped.name n).append hback
  simpa [defining] using hall

/-- Fragments without parameter marks and names. -/
def Nameless (fs : List Fragment) : Prop := fs.count .mark = 0 ∧ namesIn fs = []

private theorem nameless_nil : Nameless [] := ⟨rfl, rfl⟩

theorem Nameless.append {fs gs : List Fragment} (hf : Nameless fs) (hg : Nameless gs) :
    Nameless (fs ++ gs) :=
  ⟨by rw [List.count_append, hf.1, hg.1], by rw [namesIn_append, hf.2, hg.2]; rfl⟩

private theorem nameless_words (s : String) : Nameless [.words s] := ⟨rfl, rfl⟩

private theorem nameless_literal (content : List Char) : Nameless [.literal content] := ⟨rfl, rfl⟩

private theorem nameless_nullability (nullable : Option Bool) :
    Nameless (ColumnSpec.nullability nullable) := by
  match nullable with
  | none => exact nameless_nil
  | some true => exact nameless_words _
  | some false => exact nameless_words _

private theorem nameless_defaultClause {default : Option Value} {fs : List Fragment}
    (h : ColumnSpec.defaultClause default = .ok fs) : Nameless fs := by
  rcases defaultClause_ok h with ⟨_, rfl⟩ | ⟨v, f, _, hf, rfl⟩
  · exact nameless_nil
  · rcases default_cases hf with ⟨s, _, rfl⟩ | ⟨content, rfl⟩
    · exact (nameless_words _).append (nameless_words s)
    · exact (nameless_words _).append (nameless_literal content)

private theorem nameless_numbering (auto : Bool) : Nameless (numbering auto) := by
  cases auto with
  | false => exact nameless_nil
  | true => exact nameless_words _

private theorem nameless_commentClause {comment : Option String} {fs : List Fragment}
    (h : ColumnSpec.commentClause comment = .ok fs) : Nameless fs := by
  rcases commentClause_ok h with ⟨_, rfl⟩ | ⟨s, _, rfl⟩
  · exact nameless_nil
  · exact (nameless_words _).append (nameless_literal _)

/-- The definition of a column has no parameters and no names but that of the column. -/
private theorem define_eq_cons {spec : ColumnSpec} {column : String} {fs : List Fragment}
    (h : spec.define (.text column) = .ok fs) :
    ∃ (n : Name) (rest : List Fragment), n.text = column ∧ fs = .name n :: rest ∧
      Nameless rest := by
  obtain ⟨n, type, default, comment, hn, _, hdefault, hcomment, rfl⟩ := define_ok h
  refine ⟨n, _, hn, rfl, ?_⟩
  exact ((((nameless_words _).append (nameless_nullability spec.nullable)).append
    (nameless_defaultClause hdefault)).append (nameless_numbering spec.autoIncrement)).append
      (nameless_commentClause hcomment)

theorem count_define {spec : ColumnSpec} {column : String} {fs : List Fragment}
    (h : spec.define (.text column) = .ok fs) : fs.count .mark = 0 := by
  obtain ⟨n, rest, _, rfl, hcount, _⟩ := define_eq_cons h
  simp [hcount]

theorem namesIn_define {spec : ColumnSpec} {column : String} {fs : List Fragment}
    (h : spec.define (.text column) = .ok fs) : (namesIn fs).map Name.text = [column] := by
  obtain ⟨n, rest, hn, rfl, _, hnames⟩ := define_eq_cons h
  simp [hnames, hn]

theorem trails_placing (position : Option Placement) (ns : List Name) :
    Trails (placing position ns) := by
  match position with
  | none => exact trails_nil
  | some .first => exact trails_only (isWording_of_check rfl) rfl
  | some (.after c) => exact (isLead_of_check rfl).trails rfl (legible_names ns)

@[simp]
theorem count_placing (position : Option Placement) (ns : List Name) :
    (placing position ns).count .mark = 0 := by
  match position with
  | none => rfl
  | some .first => rfl
  | some (.after c) => simp [placing]

theorem namesIn_placing {position : Option Placement} {ns : List Name}
    (h : ns.map Name.text = neighbour position) :
    (namesIn (placing position ns)).map Name.text = neighbour position := by
  match position with
  | none => rfl
  | some .first => rfl
  | some (.after c) => simpa [placing] using h

end QueryGateway.Proofs.Plan.Clauses
