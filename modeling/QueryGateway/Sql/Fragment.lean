import QueryGateway.Sql.Name
import QueryGateway.Sql.Screening
import QueryGateway.Text.LetterCase
import QueryGateway.Text.Parts

/-!
Fragments of statements, and the clauses that filter and sort rows.
-/

set_option autoImplicit false
set_option relaxedAutoImplicit false

/-!
## Fragments

Statement text in fragments. A fragment says where its characters come from: fixed words of the
language, a name, a parameter mark, a quoted literal, or text that the caller wrote. Values of rows
and filters have no fragment, so they cannot reach the text.
-/

namespace QueryGateway.Sql

inductive Fragment
  | words (s : String)
  | name (n : Name)
  | mark
  | literal (content : List Char)
  | raw (s : String)
  deriving DecidableEq, Repr

namespace Fragment

/-- A character inside a literal: quotes and backslashes are doubled. -/
def escapeChar (c : Char) : List Char := if c = '\'' || c = '\\' then [c, c] else [c]

/-- A text as a literal in single quotes. -/
def quoteLiteral (content : List Char) : List Char :=
  '\'' :: content.flatMap escapeChar ++ ['\'']

def chars : Fragment → List Char
  | .words s => s.toList
  | .name n => n.quoted
  | .mark => ['?']
  | .literal content => quoteLiteral content
  | .raw s => s.toList

def render (fragments : List Fragment) : List Char := fragments.flatMap chars

def text (fragments : List Fragment) : String := String.ofList (render fragments)

def separated (separator : String) : List (List Fragment) → List Fragment
  | [] => []
  | [p] => p
  | p :: q :: ps => p ++ .words separator :: separated separator (q :: ps)

def names (ns : List Name) : List Fragment := separated ", " (ns.map fun n => [.name n])

def marks (count : Nat) : List Fragment :=
  .words "(" :: separated "," (List.replicate count [.mark]) ++ [.words ")"]

/-- A literal of a text, which must not hold the NUL character. -/
def ofText (s : String) : Except Failure Fragment :=
  if s.toList.contains (Char.ofNat 0) then
    .error (Failure.invalid "String literal contains a NUL character")
  else .ok (.literal s.toList)

end Fragment

end QueryGateway.Sql

/-!
## Filters

Row filters: a conjunction of tests on columns, in the order in which the caller lists them. A null
asks for a missing value, a list for one of its items, and any other value for equality.
-/

namespace QueryGateway.Sql

inductive Test
  | isNull
  | equals (v : Value)
  | among (vs : List Value)
  deriving Repr

structure Condition where
  column : Name
  test : Test
  deriving Repr

abbrev Filter := List Condition

namespace Filter

def isScalar : Value → Bool
  | .bool _ | .int _ | .float _ | .text _ => true
  | _ => false

def checkValue (column : String) (v : Value) : Except Failure Unit :=
  if !isScalar v then
    .error (Failure.invalid ("Unsupported value type for column '" ++ column ++ "'") column
      (.text v.kindName))
  else if Screening.isSuspiciousValue v then
    .error (Failure.invalid
      ("Potential SQL injection detected in where condition for column '" ++ column ++ "'") column
      .null .injection)
  else .ok ()

def testAmong (column : String) (vs : List Value) : Except Failure Test :=
  if vs.isEmpty then
    .error (Failure.invalid ("Empty value list for column '" ++ column ++ "'") column .null
      .validation (some "Provide at least one value for an IN filter"))
  else do
    vs.forM (checkValue column)
    return .among vs

def testOf (column : String) (v : Value) : Except Failure Test :=
  match v with
  | .null => .ok .isNull
  | .list vs => testAmong column vs
  | .tuple vs => testAmong column vs
  | v => do
    checkValue column v
    return .equals v

def conditionOf (entry : String × Value) : Except Failure Condition := do
  let column ← Name.ofText .column entry.1
  let test ← testOf entry.1 entry.2
  return ⟨column, test⟩

def ofFields (fields : Fields) : Except Failure Filter := fields.mapM conditionOf

/-- The filter that a value describes: none at all if it is empty, and it has to be an object. -/
def ofValue (v : Value) : Except Failure Filter :=
  if !v.isTruthy then .ok []
  else
    match v with
    | .object fields => ofFields fields
    | _ => .error (Failure.invalid "Invalid where conditions" "where")

def conditionText (c : Condition) : List Fragment :=
  .name c.column ::
    match c.test with
    | .isNull => [.words " IS NULL"]
    | .equals _ => [.words " = ", .mark]
    | .among vs => .words " IN " :: Fragment.marks vs.length

def conditionParams (c : Condition) : List Value :=
  match c.test with
  | .isNull => []
  | .equals v => [v]
  | .among vs => vs

def clause (f : Filter) : List Fragment :=
  if f.isEmpty then []
  else .words "WHERE " :: Fragment.separated " AND " (f.map conditionText)

def params (f : Filter) : List Value := f.flatMap conditionParams

end Filter

end QueryGateway.Sql

/-!
## Orderings

Orderings of rows: column names separated by commas, each with an optional direction. Any other
character than those of names, commas and white space refuses the whole text.
-/

namespace QueryGateway.Sql

inductive Direction
  | ascending | descending
  deriving DecidableEq, Repr

structure OrderTerm where
  column : Name
  direction : Option Direction
  deriving DecidableEq, Repr

namespace OrderTerm

open QueryGateway.Text

def directionOf? (word : List Char) : Option Direction :=
  if LetterCase.isKeyword "asc" word then some .ascending
  else if LetterCase.isKeyword "desc" word then some .descending
  else none

def ofWords? : List (List Char) → Option OrderTerm
  | [column] => (Name.ofChars? column).map fun n => ⟨n, none⟩
  | [column, word] =>
    (Name.ofChars? column).bind fun n => (directionOf? word).map fun d => ⟨n, some d⟩
  | _ => none

def advice : String := "Use comma separated column names with optional ASC or DESC"

def ofPiece (piece : List Char) : Except Failure OrderTerm :=
  match ofWords? (Blank.words piece) with
  | some t => .ok t
  | none =>
    .error (Failure.invalid "Invalid orderBy term" "orderBy"
      (.text (String.ofList (Blank.trim piece))) .validation (some advice))

def isAllowed (c : Char) : Bool := isNameChar c || c == ',' || Blank.isBlank c

def listOfValue (v : Value) : Except Failure (List OrderTerm) :=
  let refused := Failure.invalid "Invalid orderBy: contains illegal characters" "orderBy" v
    .identifier (some advice)
  match v with
  | .text s =>
    if s.toList.all isAllowed then (Split.splitOn ',' s.toList).mapM ofPiece else .error refused
  | _ => .error refused

def fragments (t : OrderTerm) : List Fragment :=
  .name t.column ::
    match t.direction with
    | none => []
    | some .ascending => [.words " ASC"]
    | some .descending => [.words " DESC"]

def listFragments (ts : List OrderTerm) : List Fragment :=
  Fragment.separated ", " (ts.map fragments)

end OrderTerm

end QueryGateway.Sql
