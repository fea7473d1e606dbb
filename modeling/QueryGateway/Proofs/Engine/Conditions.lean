import QueryGateway.Engine.Statement
import QueryGateway.Operation

/-!
Conditions on the catalog. A check holds just if its condition does; where it does not, the
condition is denied, or there is no table whose columns could be looked at.
-/

set_option autoImplicit false
set_option relaxedAutoImplicit false

namespace QueryGateway.Proofs.Engine.Conditions

open QueryGateway.Database
open QueryGateway.Engine
open QueryGateway.Settings (lower)

variable {s : Server} {p : Precheck} {f : Failure}

/-! ## Conditions -/

/-- A condition on the catalog, and what is told where it does not hold. -/
structure Condition where
  Holds : Server → Prop
  category : FaultClass
  code : Code
  message : String

/-- There is a table of a name, letter for letter. -/
def tableThere (table : String) : Condition where
  Holds s := ∃ t ∈ s.tables, t.name = table
  category := .notFound
  code := .tableMissing
  message := "Table '" ++ table ++ "' does not exist"

def tableNew (table : String) : Condition where
  Holds s := ¬ ∃ t ∈ s.tables, t.name = table
  category := .conflict
  code := .alreadyExists
  message := "Table '" ++ table ++ "' already exists"

def columnThere (table column : String) : Condition where
  Holds s := ∃ t, s.table? table = some t ∧ ∃ c ∈ t.columns, lower c.name = lower column
  category := .notFound
  code := .columnMissing
  message := "Column '" ++ column ++ "' does not exist in table '" ++ table ++ "'"

/-- There is a table that has no column of a name, in whatever letter case. -/
def columnNew (table column : String) : Condition where
  Holds s := ∃ t, s.table? table = some t ∧ ¬ ∃ c ∈ t.columns, lower c.name = lower column
  category := .conflict
  code := .alreadyExists
  message := "Column '" ++ column ++ "' already exists in table '" ++ table ++ "'"

def conditionOf : Precheck → Condition
  | .tableExists t => tableThere t
  | .tableAbsent t => tableNew t
  | .columnExists t c => columnThere t c
  | .columnAbsent t c => columnNew t c

def searched? : Precheck → Option String
  | .columnExists t _ | .columnAbsent t _ => some t
  | .tableExists _ | .tableAbsent _ => none

/-- A fault that says of a condition that it does not hold. -/
structure Denies (d : Condition) (f : Fault) : Prop where
  category : f.category = d.category
  code : f.code = d.code
  message : f.message = d.message

/-- What a check fails with: its condition is denied, or there is no table to look at. -/
inductive Unmet (s : Server) (p : Precheck) : Failure → Prop
  | denied {g : Fault} : (∀ table, searched? p = some table → (tableThere table).Holds s) →
      Denies (conditionOf p) g → Unmet s p (.ofFault g)
  | unknown {table : String} : searched? p = some table → ¬ (tableThere table).Holds s →
      Unmet s p (unknownTable table)

/-- All conditions of some checks hold. -/
abbrev AllMet (s : Server) (ps : List Precheck) : Prop := ∀ p ∈ ps, (conditionOf p).Holds s

/-- Checks of which one fails, and it is the first whose condition does not hold. -/
structure FirstUnmet (s : Server) (ps front rest : List Precheck) (p : Precheck) (f : Failure) :
    Prop where
  split : ps = front ++ p :: rest
  front : AllMet s front
  here : ¬ (conditionOf p).Holds s
  told : Unmet s p f

theorem FirstUnmet.not_allMet {ps front rest : List Precheck} (h : FirstUnmet s ps front rest p f) :
    ¬ AllMet s ps := fun hall => h.here (hall p (by simp [h.split]))

/-! ## Checks -/

private theorem hasTable_iff {table : String} :
    s.hasTable table = true ↔ (tableThere table).Holds s := by
  simp [Server.hasTable, Server.table?, tableThere]

private theorem table?_isSome_iff {table : String} :
    (∃ t, s.table? table = some t) ↔ (tableThere table).Holds s := by
  rw [← hasTable_iff, Server.hasTable, Option.isSome_iff_exists]

private theorem table?_eq_none_iff {table : String} :
    s.table? table = none ↔ ¬ (tableThere table).Holds s := by
  rw [← table?_isSome_iff]
  cases s.table? table <;> simp

private theorem hasColumn_of_table {t : Table} {table : String} (column : String)
    (h : s.table? table = some t) :
    hasColumn s table column = .ok (t.columns.any fun c => lower c.name == lower column) := by
  rw [hasColumn, h]

private theorem hasColumn_of_none {table : String} (column : String) (h : s.table? table = none) :
    hasColumn s table column = .error (unknownTable table) := by
  rw [hasColumn, h]

private theorem holds_of_table {t : Table} {table column : String} (h : s.table? table = some t) :
    ((columnThere table column).Holds s ↔ ∃ c ∈ t.columns, lower c.name = lower column) ∧
      ((columnNew table column).Holds s ↔ ¬ ∃ c ∈ t.columns, lower c.name = lower column) := by
  simp [columnThere, columnNew, h]

private theorem checkOne_ok (h : (conditionOf p).Holds s) : checkOne s p = .ok () := by
  cases p with
  | tableExists table => exact if_pos (hasTable_iff.mpr h)
  | tableAbsent table =>
    have hnone : s.hasTable table = false := Bool.eq_false_iff.mpr fun ht => h (hasTable_iff.mp ht)
    rw [checkOne, hnone]
    rfl
  | columnExists table column =>
    obtain ⟨t, ht, hfound⟩ := h
    have hany : (t.columns.any fun c => lower c.name == lower column) = true := by
      simpa using hfound
    rw [checkOne, hasColumn_of_table column ht, hany]
    rfl
  | columnAbsent table column =>
    obtain ⟨t, ht, hnew⟩ := h
    have hany : (t.columns.any fun c => lower c.name == lower column) = false := by
      simpa using hnew
    rw [checkOne, hasColumn_of_table column ht, hany]
    rfl

private theorem checkOne_of_missing {table : String} (hsearched : searched? p = some table)
    (h : s.table? table = none) : checkOne s p = .error (unknownTable table) := by
  cases p with
  | tableExists _ | tableAbsent _ => cases hsearched
  | columnExists table column | columnAbsent table column =>
    cases hsearched
    rw [checkOne, hasColumn_of_none column h]
    rfl

private theorem checkOne_error (h : ¬ (conditionOf p).Holds s) :
    ∃ f, checkOne s p = .error f ∧ Unmet s p f := by
  cases p with
  | tableExists table =>
    have hnone : s.hasTable table = false := Bool.eq_false_iff.mpr fun ht => h (hasTable_iff.mp ht)
    rw [checkOne, hnone]
    exact ⟨_, rfl, .denied nofun ⟨rfl, rfl, rfl⟩⟩
  | tableAbsent table =>
    have hsome : s.hasTable table = true := hasTable_iff.mpr (Classical.not_not.mp h)
    rw [checkOne, hsome]
    exact ⟨_, rfl, .denied nofun ⟨rfl, rfl, rfl⟩⟩
  | columnExists table column =>
    cases ht : s.table? table with
    | none => exact ⟨_, checkOne_of_missing rfl ht, .unknown rfl (table?_eq_none_iff.mp ht)⟩
    | some t =>
      have hany : (t.columns.any fun c => lower c.name == lower column) = false := by
        simpa using mt (holds_of_table ht).1.mpr h
      rw [checkOne, hasColumn_of_table column ht, hany]
      refine ⟨_, rfl, .denied ?_ ⟨rfl, rfl, rfl⟩⟩
      rintro _ ⟨⟩
      exact table?_isSome_iff.mp ⟨t, ht⟩
  | columnAbsent table column =>
    cases ht : s.table? table with
    | none => exact ⟨_, checkOne_of_missing rfl ht, .unknown rfl (table?_eq_none_iff.mp ht)⟩
    | some t =>
      have hany : (t.columns.any fun c => lower c.name == lower column) = true := by
        simpa using mt (holds_of_table ht).2.mpr h
      rw [checkOne, hasColumn_of_table column ht, hany]
      refine ⟨_, rfl, .denied ?_ ⟨rfl, rfl, rfl⟩⟩
      rintro _ ⟨⟩
      exact table?_isSome_iff.mp ⟨t, ht⟩

private theorem checkAll_append {front : List Precheck} (h : AllMet s front)
    (rest : List Precheck) :
    checkAll s (front ++ rest) = checkAll s rest := by
  induction front with
  | nil => rfl
  | cons p front ih =>
    obtain ⟨hp, hfront⟩ := List.forall_mem_cons.mp h
    rw [List.cons_append, checkAll, checkOne_ok hp]
    exact ih hfront

private theorem checkAll_ok {ps : List Precheck} (h : AllMet s ps) : checkAll s ps = .ok () := by
  have hall := checkAll_append h []
  rwa [List.append_nil] at hall

private theorem exists_firstUnmet {ps : List Precheck} (h : ¬ AllMet s ps) :
    ∃ front p rest f, checkAll s ps = .error f ∧ FirstUnmet s ps front rest p f := by
  induction ps with
  | nil => exact absurd nofun h
  | cons p ps ih =>
    by_cases hp : (conditionOf p).Holds s
    · have hps : ¬ AllMet s ps := fun hps => h (List.forall_mem_cons.mpr ⟨hp, hps⟩)
      obtain ⟨front, q, rest, f, hf, hsplit, hfront, hq, hunmet⟩ := ih hps
      refine ⟨p :: front, q, rest, f, ?_, congrArg (p :: ·) hsplit,
        List.forall_mem_cons.mpr ⟨hp, hfront⟩, hq, hunmet⟩
      rw [checkAll, checkOne_ok hp]
      exact hf
    · obtain ⟨f, hf, hunmet⟩ := checkOne_error hp
      refine ⟨[], p, ps, f, ?_, rfl, nofun, hp, hunmet⟩
      rw [checkAll, hf]

theorem checkAll_ok_iff {ps : List Precheck} : checkAll s ps = .ok () ↔ AllMet s ps := by
  refine ⟨fun h => ?_, checkAll_ok⟩
  by_cases hall : AllMet s ps
  · exact hall
  · obtain ⟨front, p, rest, f, hf, -⟩ := exists_firstUnmet hall
    rw [h] at hf
    cases hf

theorem firstUnmet_of_checkAll {ps : List Precheck} (h : checkAll s ps = .error f) :
    ∃ front p rest, FirstUnmet s ps front rest p f := by
  have hsome : ¬ AllMet s ps := fun hall => by
    rw [checkAll_ok hall] at h
    cases h
  obtain ⟨front, p, rest, g, hg, hfirst⟩ := exists_firstUnmet hsome
  rw [h] at hg
  cases hg
  exact ⟨front, p, rest, hfirst⟩

end QueryGateway.Proofs.Engine.Conditions
