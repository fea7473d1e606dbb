import QueryGateway.Operation
import QueryGateway.Sql.Fragment

/-!
Plans: the statements that carry out an operation, with everything that running them needs to know.
-/

set_option autoImplicit false
set_option relaxedAutoImplicit false

namespace QueryGateway

/-- A condition on the schema that has to hold before a statement runs. -/
inductive Precheck
  | tableExists (table : String)
  | tableAbsent (table : String)
  | columnExists (table column : String)
  | columnAbsent (table column : String)
  deriving DecidableEq, Repr

/-- Statement text with a mark for each of its parameters. -/
structure Statement where
  fragments : List Sql.Fragment
  params : List Value := []
  description : String := ""
  prechecks : List Precheck := []
  returnsRows : Bool := false
  deriving Repr

def Statement.chars (s : Statement) : List Char := Sql.Fragment.render s.fragments

def Statement.sql (s : Statement) : String := Sql.Fragment.text s.fragments

/-- A question about the database that no statement of a plan answers. -/
inductive Inquiry
  | tables
  | columns (table : String)
  | utility (action : UtilityAction) (table : Option String)
  deriving DecidableEq, Repr

def Inquiry.action : Inquiry → String
  | .tables => "list_tables"
  | .columns _ => "list_columns"
  | .utility a _ => a.text

def Inquiry.table : Inquiry → Option String
  | .tables => none
  | .columns t => some t
  | .utility _ t => t

structure Plan where
  kind : OperationKind
  statements : List Statement := []
  transactional : Bool := false
  retryable : Bool := true
  table : Option String := none
  inquiry : Option Inquiry := none
  deriving Repr

end QueryGateway
