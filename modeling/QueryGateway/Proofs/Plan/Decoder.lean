import QueryGateway.Proofs.Plan.Rows
import QueryGateway.Proofs.Sql.Readers

/-!
A decoder of the statements that read and write rows. It reads what a statement asks for back from
the text of the statement and its parameters, the next one for each mark.
-/

set_option autoImplicit false
set_option relaxedAutoImplicit false

namespace QueryGateway.Proofs.Plan.Decoder

open QueryGateway.Sql
open QueryGateway.Plan
open QueryGateway.Number
open QueryGateway.Proofs.Plan.Parts
open QueryGateway.Proofs.Plan.Rows
open QueryGateway.Proofs.Sql.Lexical (render_append render_cons)
open QueryGateway.Proofs.Sql.Readers

/-! ## Meanings -/

/-- What an operation on rows asks for. To create a row is to insert it as the only one. -/
inductive Meaning
  | read (table : String) (columns : List String) (filter : List (String × Test))
    (ordering : List (String × Option Direction)) (limit : Option Int) (offset : Int)
  | insert (table : String) (rows : List Fields)
  | update (table : String) (row : Fields) (filter : List (String × Test))
  | delete (table : String) (filter : List (String × Test))
  deriving Repr

/-- The limit of a reading: one that skips rows has a limit in any case. -/
def limitOf (limit offset : Option Int) : Option Int :=
  if 0 < offset.getD 0 then some (limit.getD maxRows) else limit

/-! ## The decoder -/

def columns : Reader (List String) := listOf ", " name

def marks : Reader (List Value) := do
  word "("
  let vs ← listOf "," mark
  word ")"
  return vs

def test : Reader Test :=
  after " IS NULL" (pure .isNull) <|
  after " = " (do return .equals (← mark)) <|
  after " IN " (do return .among (← marks)) failure

def condition : Reader (String × Test) := do
  let column ← name
  return (column, ← test)

def conditions : Reader (List (String × Test)) := listOf " AND " condition

def direction : Reader (Option Direction) :=
  after " ASC" (pure (some .ascending)) <|
  after " DESC" (pure (some .descending)) (pure none)

def term : Reader (String × Option Direction) := do
  let column ← name
  return (column, ← direction)

def limited (limit : Int) : Reader (Option Int × Int) :=
  after " OFFSET " (do return (some limit, ← number)) (pure (some limit, 0))

def bounds : Reader (Option Int × Int) :=
  after " LIMIT " (do limited (← number)) (pure (none, 0))

def readMeaning : Reader Meaning := do
  let selected ← after "*" (pure []) columns
  word " FROM "
  let table ← name
  let filter ← after " WHERE " conditions (pure [])
  let ordering ← after " ORDER BY " (listOf ", " term) (pure [])
  let (limit, offset) ← bounds
  return .read table selected filter ordering limit offset

def insertMeaning : Reader Meaning := do
  let table ← name
  word " ("
  let columns ← columns
  word ") VALUES "
  let rows ← listOf "," marks
  return .insert table (rows.map (columns.zip ·))

def assigned : Reader (String × Value) := do
  let column ← name
  word " = "
  return (column, ← mark)

def updateMeaning : Reader Meaning := do
  let table ← name
  word " SET "
  let row ← listOf ", " assigned
  word " WHERE "
  return .update table row (← conditions)

def deleteMeaning : Reader Meaning := do
  let table ← name
  word " WHERE "
  return .delete table (← conditions)

def statement : Reader Meaning :=
  after "SELECT " readMeaning <|
  after "INSERT INTO " insertMeaning <|
  after "UPDATE " updateMeaning <|
  after "DELETE FROM " deleteMeaning failure

/-- The meaning of a statement text with the parameters for its marks, all of which it uses up. -/
def decode (sql : String) (params : List Value) : Option Meaning :=
  match statement ⟨sql.toList, params⟩ with
  | some (m, ⟨[], []⟩) => some m
  | _ => none

/-! ## Reading clauses -/

private theorem takes_columns {ns : List Name} (h : ns ≠ []) :
    Takes columns (Fragment.names ns) [] [", "] (ns.map Name.text) := by
  have hlist := takes_listOf ", " h (by decide) (by decide) fun n _ => takes_name n
  exact hlist.of_eq rfl (by simp)

private theorem takes_marks {vs : List Value} (h : vs ≠ []) :
    Takes marks (Fragment.marks vs.length) vs [] vs := by
  have hlist := takes_listOf "," h (by decide) (by decide) fun v _ => takes_mark v
  rw [List.map_id'] at hlist
  have hclose : Takes (do word ")"; return vs) [.words ")"] [] [] vs :=
    (takes_word ")").andThen (takes_pure vs)
  refine ((takes_word "(").andThen (hlist.before hclose (by decide))).of_eq ?_ ?_
  · simp [Fragment.marks]
  · simp

private theorem takes_test {c : Condition} (h : c.test ≠ .among []) :
    Takes test (Filter.conditionText c).tail (Filter.conditionParams c) [] c.test := by
  obtain ⟨column, test⟩ := c
  cases test with
  | isNull => exact takes_after (takes_pure _)
  | equals v => exact takes_unlike (takes_after ((takes_mark v).map Test.equals)) (by decide)
  | among vs =>
    have hmarks : Takes marks _ vs [] vs := takes_marks (by simpa using h)
    exact takes_unlike (takes_unlike (takes_after (hmarks.map Test.among)) (by decide)) (by decide)

private theorem takes_condition {c : Condition} (h : c.test ≠ .among []) :
    Takes condition (Filter.conditionText c) (Filter.conditionParams c) []
      (c.column.text, c.test) :=
  (takes_name c.column).andThen ((takes_test h).map fun t => (c.column.text, t))

private theorem takes_conditions {f : Filter} (hne : f ≠ []) (h : ∀ c ∈ f, c.test ≠ .among []) :
    Takes conditions (Fragment.separated " AND " (f.map Filter.conditionText)) f.params [" AND "]
      (f.map fun c => (c.column.text, c.test)) :=
  takes_listOf " AND " hne (by decide) (by decide) fun c hc => takes_condition (h c hc)

private theorem takes_filtering {f : Filter} (h : ∀ c ∈ f, c.test ≠ .among []) :
    Takes (after " WHERE " conditions (pure [])) (filtering f) f.params [" WHERE ", " AND "]
      (f.map fun c => (c.column.text, c.test)) := by
  cases f with
  | nil => exact (takes_missing _ _ _).mono (by simp)
  | cons c f =>
    have hconditions := takes_conditions (by simp) h
    exact ((takes_after hconditions).mono (by simp)).of_eq rfl rfl

private theorem takes_direction (t : OrderTerm) :
    Takes direction t.fragments.tail [] [" ASC", " DESC"] t.direction := by
  obtain ⟨column, direction⟩ := t
  match direction with
  | none =>
    have hmissing : Takes (after " DESC" (pure (some Direction.descending)) (pure none)) [] []
        [" ASC", " DESC"] none := (takes_missing _ _ _).mono (by simp)
    exact takes_other hmissing fun _ hrest => hrest " ASC" (by simp)
  | some .ascending => exact (takes_after (takes_pure _)).mono nofun
  | some .descending => exact (takes_unlike (takes_after (takes_pure _)) (by decide)).mono nofun

private theorem takes_term (t : OrderTerm) :
    Takes term t.fragments [] [" ASC", " DESC"] (t.column.text, t.direction) :=
  (takes_name t.column).andThen ((takes_direction t).map fun d => (t.column.text, d))

private theorem takes_sorting (terms : List OrderTerm) :
    Takes (after " ORDER BY " (listOf ", " term) (pure [])) (sorting terms) []
      [" ORDER BY ", ", ", " ASC", " DESC"] (terms.map fun t => (t.column.text, t.direction)) := by
  cases terms with
  | nil => exact (takes_missing _ _ _).mono (by simp)
  | cons t ts =>
    have hterms := takes_listOf ", " (List.cons_ne_nil t ts) (by decide) (by decide)
      fun u _ => takes_term u
    exact ((takes_after hterms).mono (by simp)).of_eq rfl (by simp)

private theorem takes_selection (ns : List Name) :
    Takes (after "*" (pure []) columns) (selection ns) [] [", "] (ns.map Name.text) := by
  cases ns with
  | nil => exact (takes_after (takes_pure _)).mono nofun
  | cons n ns =>
    have hstar : ∀ rest, "*".toList.isPrefixOf
        (Fragment.render (Fragment.names (n :: ns)) ++ rest) = false := by
      intro rest
      cases ns with
      | nil => rfl
      | cons m ns => rfl
    exact takes_other (takes_columns (by simp)) fun rest _ => hstar rest

def windowStops : List String := " LIMIT " :: " OFFSET " :: digitWords

private theorem mem_windowStops (k : String) (h : k ∈ digitWords) : k ∈ windowStops :=
  List.mem_cons_of_mem _ (List.mem_cons_of_mem _ h)

private theorem render_numbered (keyword : String) (i : Int) (fs : List Fragment) :
    Fragment.render (numbered keyword i :: fs) =
      Fragment.render (.words keyword :: .words (String.ofList (Numeral.ofInt i)) :: fs) := by
  simp [numbered, Fragment.render, Fragment.chars]

private theorem takes_limit {l : Int} (h : 0 ≤ l) :
    Takes bounds [numbered " LIMIT " l] [] windowStops (some l, 0) := by
  have hmissing : Takes (limited l) [] [] windowStops (some l, 0) :=
    (takes_missing _ _ _).mono (by simp [windowStops])
  have hlimit := (takes_number h).alone hmissing mem_windowStops
  exact (takes_after hlimit).of_eq (render_numbered _ _ _) rfl

private theorem takes_limit_offset {l o : Int} (hl : 0 ≤ l) (ho : 0 ≤ o) :
    Takes bounds [numbered " LIMIT " l, numbered " OFFSET " o] [] windowStops
      (some l, o) := by
  have hoffset : Takes (limited l) [.words " OFFSET ", .words (String.ofList (Numeral.ofInt o))] []
      digitWords (some l, o) :=
    takes_after ((takes_number ho).map fun o => (some l, o))
  have hboth := (takes_number hl).before (hoffset.mono mem_windowStops) (by decide)
  refine (takes_after hboth).of_eq ?_ rfl
  rw [render_numbered, render_cons, render_cons, render_numbered]
  rfl

private theorem takes_window {limit offset : Option Int} (hlimit : ∀ n ∈ limit, 1 ≤ n ∧ n ≤ maxRows)
    (hoffset : ∀ n ∈ offset, 0 ≤ n) :
    Takes bounds (window limit offset) [] windowStops
      (limitOf limit offset, offset.getD 0) := by
  have hnone : Takes bounds [] [] windowStops (none, 0) :=
    (takes_missing _ _ _).mono (by simp [windowStops])
  match limit, offset with
  | none, none => exact hnone
  | some l, none =>
    have hl := (hlimit l rfl).1
    exact takes_limit (by omega)
  | none, some o =>
    have ho := hoffset o rfl
    by_cases hzero : o = 0
    · subst hzero
      exact hnone
    · have hwindow := takes_limit_offset (l := maxRows) (by decide) ho
      simpa [window, hzero, limitOf, show 0 < o by omega] using hwindow
  | some l, some o =>
    have hl := (hlimit l rfl).1
    have ho := hoffset o rfl
    by_cases hzero : o = 0
    · subst hzero
      exact takes_limit (by omega)
    · have hwindow := takes_limit_offset (l := l) (by omega) ho
      simpa [window, hzero, limitOf, show 0 < o by omega] using hwindow

/-! ## Reading statements -/

private theorem opens_sorting (terms : List OrderTerm) :
    Opens " ORDER BY " (Fragment.render (sorting terms)) := by
  cases terms with
  | nil => exact .inl rfl
  | cons t ts => exact .inr (List.prefix_append _ _)

private theorem opens_limit (l : Int) (fs : List Fragment) :
    Opens " LIMIT " (Fragment.render (numbered " LIMIT " l :: fs)) := by
  rw [render_numbered]
  exact .inr (List.prefix_append _ _)

private theorem opens_window (limit offset : Option Int) :
    Opens " LIMIT " (Fragment.render (window limit offset)) := by
  unfold window
  split
  · exact .inl rfl
  · exact opens_limit _ _
  · split
    · exact .inl rfl
    · exact opens_limit _ _
  · split
    · exact opens_limit _ _
    · exact opens_limit _ _

def readStops : List String :=
  [" WHERE ", " AND ", " ORDER BY ", ", ", " ASC", " DESC"] ++ windowStops

theorem takes_reading (t : Name) (ns : List Name) (terms : List OrderTerm) {f : Filter}
    {limit offset : Option Int} (hf : ∀ c ∈ f, c.test ≠ .among [])
    (hlimit : ∀ n ∈ limit, 1 ≤ n ∧ n ≤ maxRows) (hoffset : ∀ n ∈ offset, 0 ≤ n) :
    Takes statement (reading t ns f terms limit offset) f.params readStops
      (.read t.text (ns.map Name.text) (f.map fun c => (c.column.text, c.test))
        (terms.map fun u => (u.column.text, u.direction)) (limitOf limit offset)
        (offset.getD 0)) := by
  have hread : Takes readMeaning (selection ns ++ .words " FROM " :: .name t ::
      (filtering f ++ (sorting terms ++ window limit offset))) (f.params ++ []) readStops
      (.read t.text (ns.map Name.text) (f.map fun c => (c.column.text, c.test))
        (terms.map fun u => (u.column.text, u.direction)) (limitOf limit offset)
        (offset.getD 0)) := by
    have hstops : ∀ k ∈ windowStops, k ∈ readStops := fun k hk => List.mem_append_right _ hk
    have hwindow := (takes_window hlimit hoffset).mono hstops
    refine (takes_selection ns).before ?_ (by decide)
    refine (takes_word _).andThen ((takes_name t).andThen ?_)
    refine (takes_filtering hf).bind ?_ fun rest hrest => ?_
    · refine (takes_sorting terms).bind (hwindow.map _) fun rest hrest => ?_
      exact avoids_opens (by decide) (opens_window limit offset) (hrest.mono (by simp [readStops]))
    · rw [render_append, List.append_assoc]
      refine avoids_opens (by decide) (opens_sorting terms) ?_
      exact avoids_opens (by decide) (opens_window limit offset) (hrest.mono (by simp [readStops]))
  refine (takes_after hread).of_eq ?_ (List.append_nil _).symm
  simp [reading]

theorem takes_insertion {t : Name} {ns : List Name} {rows : List (List Value)} (hns : ns ≠ [])
    (hrows : rows ≠ []) (h : ∀ row ∈ rows, row.length = ns.length) :
    Takes statement (insertion t ns rows.length) rows.flatten [","]
      (.insert t.text (rows.map ((ns.map Name.text).zip ·))) := by
  have hmarks : ∀ row ∈ rows, Takes marks (Fragment.marks row.length) row [] row := by
    intro row hrow
    refine takes_marks fun hnil => hns ?_
    rw [← List.length_eq_zero_iff, ← h row hrow, hnil, List.length_nil]
  have hlist := takes_listOf "," hrows (by decide) (by decide) hmarks
  rw [List.map_id'] at hlist
  have hinsert : Takes insertMeaning (.name t :: .words " (" :: (Fragment.names ns ++
      .words ") VALUES " :: Fragment.separated "," (rows.map fun row => Fragment.marks row.length)))
      (rows.flatMap fun row => row) [","]
      (.insert t.text (rows.map ((ns.map Name.text).zip ·))) := by
    refine (takes_name t).andThen ((takes_word _).andThen ?_)
    refine (takes_columns hns).before ?_ (by decide)
    exact (takes_word _).andThen (hlist.map _)
  have htexts : rows.map (fun row => Fragment.marks row.length) =
      List.replicate rows.length (Fragment.marks ns.length) := by
    rw [List.map_congr_left fun row hrow => by rw [h row hrow], List.map_const']
  rw [htexts] at hinsert
  refine (takes_unlike (takes_after hinsert) (by decide)).of_eq ?_ List.flatMap_id'.symm
  simp [insertion]

private theorem takes_assigned (e : Name × Value) :
    Takes assigned (assignment e.1) [e.2] [] (e.1.text, e.2) :=
  (takes_name e.1).andThen ((takes_word _).andThen ((takes_mark e.2).map _))

theorem takes_updating {t : Name} {es : List (Name × Value)} {f : Filter} (hes : es ≠ [])
    (hne : f ≠ []) (hf : ∀ c ∈ f, c.test ≠ .among []) :
    Takes statement (updating t (es.map (·.1)) f) (es.map (·.2) ++ f.params) [" AND "]
      (.update t.text (es.map fun e => (e.1.text, e.2))
        (f.map fun c => (c.column.text, c.test))) := by
  have hassigned := takes_listOf ", " hes (by decide) (by decide) fun e _ => takes_assigned e
  have hupdate : Takes updateMeaning (.name t :: .words " SET " ::
      (Fragment.separated ", " (es.map fun e => assignment e.1) ++ .words " WHERE " ::
        Fragment.separated " AND " (f.map Filter.conditionText)))
      (es.flatMap (fun e => [e.2]) ++ f.params) [" AND "]
      (.update t.text (es.map fun e => (e.1.text, e.2))
        (f.map fun c => (c.column.text, c.test))) := by
    refine (takes_name t).andThen ((takes_word _).andThen ?_)
    refine hassigned.before ?_ (by decide)
    exact (takes_word _).andThen ((takes_conditions hne hf).map _)
  refine (takes_unlike (takes_unlike (takes_after hupdate) (by decide)) (by decide)).of_eq ?_ ?_
  · simp [updating, Filter.clause, hne, Fragment.render, Fragment.chars, Function.comp_def]
  · rw [List.map_eq_flatMap]

theorem takes_deleting {t : Name} {f : Filter} (hne : f ≠ []) (hf : ∀ c ∈ f, c.test ≠ .among []) :
    Takes statement (deleting t f) f.params [" AND "]
      (.delete t.text (f.map fun c => (c.column.text, c.test))) := by
  have hdelete : Takes deleteMeaning (.name t :: .words " WHERE " ::
      Fragment.separated " AND " (f.map Filter.conditionText)) f.params [" AND "]
      (.delete t.text (f.map fun c => (c.column.text, c.test))) :=
    (takes_name t).andThen ((takes_word _).andThen ((takes_conditions hne hf).map _))
  refine (takes_unlike (takes_unlike (takes_unlike (takes_after hdelete) (by decide)) (by decide))
    (by decide)).of_eq ?_ rfl
  simp [deleting, Filter.clause, hne, Fragment.render, Fragment.chars]

theorem decode_of_takes {s : Statement} {ks : List String} {m : Meaning}
    (h : Takes statement s.fragments s.params ks m)
    (hks : ks.all (fun k => !k.toList.isEmpty) = true) : decode s.sql s.params = some m := by
  have hwhole := h [] [] (avoids_nil hks)
  rw [List.append_nil, List.append_nil] at hwhole
  unfold decode
  rw [Statement.sql, Fragment.text, String.toList_ofList, hwhole]

end QueryGateway.Proofs.Plan.Decoder
