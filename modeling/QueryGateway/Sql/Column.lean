import QueryGateway.Number.Numeral
import QueryGateway.Sql.ColumnType
import QueryGateway.Sql.Fragment
import QueryGateway.Text.LetterCase

/-!
Definitions of columns with their defaults.
-/

set_option autoImplicit false
set_option relaxedAutoImplicit false

/-!
## Defaults

Defaults of columns as they stand in a definition: a keyword, a number, the current time or a
quoted literal.
-/

namespace QueryGateway.Sql.Default

open QueryGateway.Number
open QueryGateway.Text

/-- The keyword for the time at which a row is written, in small letters. -/
def currentTime : String := "current_timestamp"

/-- Whether a text is a precision of the current time: nothing, or a digit up to six in
parentheses with white space around it. -/
def isPrecision : List Char → Bool
  | [] => true
  | '(' :: r =>
    r.getLast? == some ')' &&
      match Blank.trim r.dropLast with
      | [d] => '0' ≤ d && d ≤ '6'
      | _ => false
  | _ => false

def isCurrentTime (s : List Char) : Bool :=
  ((LetterCase.afterKeyword? currentTime s).map isPrecision).getD false

/-- A request for the current time in capitals and without blanks. -/
def normalTime (s : List Char) : List Char := (LetterCase.upper s).filter (· != ' ')

def ofText (s : String) : Except Failure Fragment :=
  let t := Blank.trim s.toList
  if isCurrentTime t then .ok (.words (String.ofList (normalTime t))) else Fragment.ofText s

def ofValue (v : Value) : Except Failure Fragment :=
  match v with
  | .null => .ok (.words "NULL")
  | .bool b => .ok (.words (if b then "TRUE" else "FALSE"))
  | .int i => (Failure.written (Value.Display.text? (.int i))).map .words
  | .float x =>
    if x.isFinite then .ok (.words (String.ofList (Shortest.text x)))
    else .error (Failure.invalid "Default value must be a finite number" "default" v)
  | .text s => ofText s
  | _ =>
    .error (Failure.invalid "Default value must be a string, number, boolean or null" "default"
      (.text v.kindName))

end QueryGateway.Sql.Default

/-!
## Columns

Definitions of columns as schema statements hold them: name, type, nullability, default, automatic
numbering and comment, in this order.
-/

namespace QueryGateway.Sql

/-- What a column is to be, apart from its name. A default that is absent differs from one that is
null. -/
structure ColumnSpec where
  type : String
  nullable : Option Bool := none
  default : Option Value := none
  autoIncrement : Bool := false
  comment : Option String := none
  deriving Repr

structure NamedColumn where
  name : String
  spec : ColumnSpec
  deriving Repr

namespace ColumnSpec

def nullability : Option Bool → List Fragment
  | none => []
  | some true => [.words " NULL"]
  | some false => [.words " NOT NULL"]

def defaultClause : Option Value → Except Failure (List Fragment)
  | none => .ok []
  | some v => do
    let literal ← Default.ofValue v
    return [.words " DEFAULT ", literal]

def commentClause : Option String → Except Failure (List Fragment)
  | none => .ok []
  | some s => do
    let literal ← Fragment.ofText s
    return [.words " COMMENT ", literal]

def define (name : Value) (spec : ColumnSpec) : Except Failure (List Fragment) := do
  let name ← Name.ofValue .column name
  let type ← ColumnType.ofValue (.text spec.type)
  let default ← defaultClause spec.default
  let comment ← commentClause spec.comment
  let numbering := if spec.autoIncrement then [.words " AUTO_INCREMENT"] else []
  return [.name name, .words (" " ++ type.text)] ++ nullability spec.nullable ++ default ++
    numbering ++ comment

end ColumnSpec

end QueryGateway.Sql
