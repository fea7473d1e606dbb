import QueryGateway.Plan.Schema
import QueryGateway.Proofs.Sql.Names

/-!
The statements that change the schema, each spelled out from the parts that its plan was made of.
-/

set_option autoImplicit false
set_option relaxedAutoImplicit false

namespace QueryGateway.Proofs.Plan.Schema

open QueryGateway.Sql
open QueryGateway.Plan
open QueryGateway.Proofs.Success
open QueryGateway.Proofs.Sql.Names

/-! ## Parts -/

theorem guardTable_ok {table : String} :
    Protected.guardTable table = .ok () ↔ Protected.targets table.toList = false := by
  unfold Protected.guardTable
  split
  · rename_i h
    simp [h]
  · rename_i h
    simpa using h

theorem openTable_ok {table : String} {t : Name} (h : openTable table = .ok t) :
    t.text = table ∧ Protected.targets table.toList = false := by
  simp only [openTable, bind_ok] at h
  obtain ⟨_, hguard, hname⟩ := h
  exact ⟨ofText_ok.mp hname, guardTable_ok.mp hguard⟩

/-- The words that number a column by itself. -/
def numbering (auto : Bool) : List Fragment := if auto then [.words " AUTO_INCREMENT"] else []

def defining (column : Name) (type : ColumnType) (nullable : Option Bool)
    (default : List Fragment) (auto : Bool) (comment : List Fragment) : List Fragment :=
  [.name column, .words (" " ++ type.text)] ++ ColumnSpec.nullability nullable ++ default ++
    numbering auto ++ comment

theorem define_ok {spec : ColumnSpec} {column : String} {fs : List Fragment}
    (h : spec.define (.text column) = .ok fs) :
    ∃ (n : Name) (type : ColumnType) (default comment : List Fragment),
      n.text = column ∧ ColumnType.ofValue (.text spec.type) = .ok type ∧
      ColumnSpec.defaultClause spec.default = .ok default ∧
      ColumnSpec.commentClause spec.comment = .ok comment ∧
      fs = defining n type spec.nullable default spec.autoIncrement comment := by
  simp only [ColumnSpec.define, bind_ok, pure_ok] at h
  obtain ⟨n, hn, type, htype, default, hdefault, comment, hcomment, rfl⟩ := h
  exact ⟨n, type, default, comment, ofText_ok.mp hn, htype, hdefault, hcomment, rfl⟩

theorem defaultClause_ok {default : Option Value} {fs : List Fragment}
    (h : ColumnSpec.defaultClause default = .ok fs) :
    (default = none ∧ fs = []) ∨
      ∃ v f, default = some v ∧ Default.ofValue v = .ok f ∧ fs = [.words " DEFAULT ", f] := by
  unfold ColumnSpec.defaultClause at h
  split at h
  · cases h
    exact .inl ⟨rfl, rfl⟩
  · rename_i v
    simp only [bind_ok, pure_ok] at h
    obtain ⟨f, hf, rfl⟩ := h
    exact .inr ⟨v, f, rfl, hf, rfl⟩

theorem commentClause_ok {comment : Option String} {fs : List Fragment}
    (h : ColumnSpec.commentClause comment = .ok fs) :
    (comment = none ∧ fs = []) ∨
      ∃ s, comment = some s ∧ fs = [.words " COMMENT ", .literal s.toList] := by
  unfold ColumnSpec.commentClause at h
  split at h
  · cases h
    exact .inl ⟨rfl, rfl⟩
  · rename_i s
    simp only [bind_ok, pure_ok] at h
    obtain ⟨f, hf, rfl⟩ := h
    unfold Fragment.ofText at hf
    split at hf
    · cases hf
    · cases hf
      exact .inr ⟨s, rfl, rfl⟩

def neighbour : Option Placement → List String
  | some (.after column) => [column]
  | _ => []

def placing : Option Placement → List Name → List Fragment
  | none, _ => []
  | some .first, _ => [.words " FIRST"]
  | some (.after _), ns => .words " AFTER " :: Fragment.names ns

private theorem placementClause_ok {position : Option Placement} {fs : List Fragment}
    (h : placementClause position = .ok fs) :
    ∃ ns : List Name, ns.map Name.text = neighbour position ∧ fs = placing position ns := by
  unfold placementClause at h
  split at h
  · cases h
    exact ⟨[], rfl, rfl⟩
  · cases h
    exact ⟨[], rfl, rfl⟩
  · simp only [bind_ok, pure_ok] at h
    obtain ⟨n, hn, rfl⟩ := h
    exact ⟨[n], by simpa [neighbour] using ofText_ok.mp hn, rfl⟩

private theorem indexColumns_ok {columns : List String} {ns : List Name}
    (h : indexColumns columns = .ok ns) : columns ≠ [] ∧ ns.map Name.text = columns := by
  unfold indexColumns at h
  split at h
  · cases h
  · rename_i hne
    exact ⟨by simpa using hne, mapM_ofText_ok.mp h⟩

/-- The words that may stand around the columns of an index. -/
def indexAffixes : List (String × String) :=
  [("UNIQUE ", ""), ("", ""), ("FULLTEXT ", ""), ("SPATIAL ", ""), ("UNIQUE ", " USING BTREE"),
   ("", " USING BTREE"), ("UNIQUE ", " USING HASH"), ("", " USING HASH")]

theorem indexWords_ok {method : Option IndexMethod} {unique : Bool} {words : String × String}
    (h : indexWords method unique = .ok words) : words ∈ indexAffixes := by
  rcases method with _ | _ | _ | _ | _ <;> cases unique <;> cases h <;> decide

theorem renameChange_ok {old new : Name} {spec : Option ColumnSpec} {fs : List Fragment}
    (h : renameChange old new spec = .ok fs) :
    (spec = none ∧ fs = [.words "RENAME COLUMN ", .name old, .words " TO ", .name new]) ∨
      ∃ d definition, spec = some d ∧ d.define (.text new.text) = .ok definition ∧
        fs = .words "CHANGE COLUMN " :: .name old :: .words " " :: definition := by
  unfold renameChange at h
  split at h
  · cases h
    exact .inl ⟨rfl, rfl⟩
  · rename_i d
    simp only [bind_ok, pure_ok] at h
    obtain ⟨definition, hdefinition, rfl⟩ := h
    exact .inr ⟨d, definition, rfl, hdefinition, rfl⟩

/-! ## Plans -/

theorem ofAddColumn_ok {table : String} {column : NamedColumn} {position : Option Placement}
    {p : Plan} (h : ofAddColumn table column position = .ok p) :
    ∃ (t : Name) (definition : List Fragment) (ns : List Name),
      openTable table = .ok t ∧ column.spec.define (.text column.name) = .ok definition ∧
      ns.map Name.text = neighbour position ∧
      p = alteration .addColumn t
        (alterTable t " ADD COLUMN " ++ definition ++ placing position ns)
        ("Add column '" ++ column.name ++ "' to table '" ++ t.text ++ "'") [] := by
  simp only [ofAddColumn, bind_ok, pure_ok] at h
  obtain ⟨t, ht, definition, hdefinition, place, hplace, rfl⟩ := h
  obtain ⟨ns, hns, rfl⟩ := placementClause_ok hplace
  exact ⟨t, definition, ns, ht, hdefinition, hns, rfl⟩

theorem ofDropColumn_ok {table column : String} {p : Plan}
    (h : ofDropColumn table column = .ok p) :
    ∃ t c : Name, openTable table = .ok t ∧ c.text = column ∧
      p = alteration .dropColumn t (alterTable t " DROP COLUMN " ++ [.name c])
        ("Drop column '" ++ c.text ++ "' from table '" ++ t.text ++ "'")
        [.tableExists t.text, .columnExists t.text c.text] := by
  simp only [ofDropColumn, bind_ok, pure_ok] at h
  obtain ⟨t, ht, c, hc, rfl⟩ := h
  exact ⟨t, c, ht, ofText_ok.mp hc, rfl⟩

theorem ofModifyColumn_ok {table column : String} {spec : ColumnSpec} {p : Plan}
    (h : ofModifyColumn table column spec = .ok p) :
    ∃ (t c : Name) (definition : List Fragment), openTable table = .ok t ∧ c.text = column ∧
      spec.define (.text column) = .ok definition ∧
      p = alteration .modifyColumn t (alterTable t " MODIFY COLUMN " ++ definition)
        ("Modify column '" ++ c.text ++ "' in table '" ++ t.text ++ "'") [] := by
  simp only [ofModifyColumn, bind_ok, pure_ok] at h
  obtain ⟨t, ht, c, hc, definition, hdefinition, rfl⟩ := h
  have hcolumn := ofText_ok.mp hc
  rw [hcolumn] at hdefinition
  exact ⟨t, c, definition, ht, hcolumn, hdefinition, rfl⟩

theorem ofRenameColumn_ok {table old new : String} {spec : Option ColumnSpec} {p : Plan}
    (h : ofRenameColumn table old new spec = .ok p) :
    ∃ (t o n : Name) (change : List Fragment), openTable table = .ok t ∧ o.text = old ∧
      n.text = new ∧ renameChange o n spec = .ok change ∧
      p = alteration .renameColumn t (alterTable t " " ++ change)
        ("Rename column '" ++ o.text ++ "' to '" ++ n.text ++ "' in table '" ++ t.text ++ "'")
        [.tableExists t.text, .columnExists t.text o.text, .columnAbsent t.text n.text] := by
  simp only [ofRenameColumn, bind_ok, pure_ok] at h
  obtain ⟨t, ht, o, ho, n, hn, change, hchange, rfl⟩ := h
  exact ⟨t, o, n, change, ht, ofText_ok.mp ho, ofText_ok.mp hn, hchange, rfl⟩

theorem ofRenameTable_ok {old new : String} {p : Plan} (h : ofRenameTable old new = .ok p) :
    ∃ o n : Name, Protected.targets old.toList = false ∧ Protected.targets new.toList = false ∧
      o.text = old ∧ n.text = new ∧
      p = alteration .renameTable o (alterTable o " RENAME TO " ++ [.name n])
        ("Rename table '" ++ o.text ++ "' to '" ++ n.text ++ "'")
        [.tableExists o.text, .tableAbsent n.text] := by
  simp only [ofRenameTable, bind_ok, pure_ok] at h
  obtain ⟨_, hold, _, hnew, o, ho, n, hn, rfl⟩ := h
  exact ⟨o, n, guardTable_ok.mp hold, guardTable_ok.mp hnew, ofText_ok.mp ho, ofText_ok.mp hn, rfl⟩

theorem ofAddIndex_ok {r : IndexRequest} {p : Plan} (h : ofAddIndex r = .ok p) :
    ∃ (t n : Name) (ns : List Name) (words : String × String),
      openTable r.table = .ok t ∧ n.text = r.name ∧ ns.map Name.text = r.columns ∧
      indexWords r.method r.unique = .ok words ∧
      p = alteration .addIndex t
        ([.words ("CREATE " ++ words.1 ++ "INDEX "), .name n, .words " ON ", .name t,
          .words " ("] ++ Fragment.names ns ++ [.words (")" ++ words.2)])
        ("Add index '" ++ n.text ++ "' on table '" ++ t.text ++ "'") [] := by
  simp only [ofAddIndex, bind_ok, pure_ok] at h
  obtain ⟨t, ht, n, hn, ns, hns, words, hwords, rfl⟩ := h
  exact ⟨t, n, ns, words, ht, ofText_ok.mp hn, (indexColumns_ok hns).2, hwords, rfl⟩

theorem ofDropIndex_ok {table name : String} {p : Plan} (h : ofDropIndex table name = .ok p) :
    ∃ t n : Name, openTable table = .ok t ∧ n.text = name ∧
      p = alteration .dropIndex t [.words "DROP INDEX ", .name n, .words " ON ", .name t]
        ("Drop index '" ++ n.text ++ "' from table '" ++ t.text ++ "'") [] := by
  simp only [ofDropIndex, bind_ok, pure_ok] at h
  obtain ⟨t, ht, n, hn, rfl⟩ := h
  exact ⟨t, n, ht, ofText_ok.mp hn, rfl⟩

end QueryGateway.Proofs.Plan.Schema
