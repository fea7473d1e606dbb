import QueryGateway.Failure
import QueryGateway.Text.LetterCase
import QueryGateway.Text.Parts

/-!
Names of tables, columns and indexes, and the schemas that they may not point into.
-/

set_option autoImplicit false
set_option relaxedAutoImplicit false

/-!
## Names

Names of tables, columns and indexes. A name is made of ASCII letters, digits and underscores, or
it is refused; nothing is stripped or changed. So a quoted name needs no escape.
-/

namespace QueryGateway.Sql

/-- An ASCII letter, a digit or an underscore. -/
def isNameChar (c : Char) : Bool := c.isAlphanum || c == '_'

def isName (s : List Char) : Bool := !s.isEmpty && s.all isNameChar

structure Name where
  chars : List Char
  isName_chars : isName chars = true
  deriving DecidableEq, Repr

inductive NameKind
  | table | column | index
  deriving DecidableEq, Repr

def NameKind.text : NameKind → String
  | .table => "table"
  | .column => "column"
  | .index => "index"

namespace Name

def text (n : Name) : String := String.ofList n.chars

def ofChars? (s : List Char) : Option Name :=
  if h : isName s = true then some ⟨s, h⟩ else none

def quoted (n : Name) : List Char := '`' :: n.chars ++ ['`']

def refusal (kind : NameKind) (v : Value) : Failure :=
  let bare := Failure.invalid ("Invalid " ++ kind.text ++ " name") kind.text v .identifier
  match v with
  | .text s =>
    if s.isEmpty then bare
    else
      Failure.invalid ("Invalid " ++ kind.text ++ " name: contains illegal characters") kind.text v
        .identifier (some "Identifiers may only contain letters, digits and underscores")
  | _ => bare

def ofValue (kind : NameKind) (v : Value) : Except Failure Name :=
  match v with
  | .text s =>
    match ofChars? s.toList with
    | some n => .ok n
    | none => .error (refusal kind v)
  | _ => .error (refusal kind v)

def ofText (kind : NameKind) (s : String) : Except Failure Name := ofValue kind (.text s)

def quoteValue (v : Value) : Except Failure (List Char) :=
  let refused := Failure.invalid "Invalid identifier" "" v .identifier
  match v with
  | .text s =>
    match ofChars? s.toList with
    | some n => .ok n.quoted
    | none => .error refused
  | _ => .error refused

end Name

end QueryGateway.Sql

/-!
## Protected schemas

Schemas of the server itself, which no schema change may target. A bare name and the part of a
qualified name before its first point are compared in small letters.
-/

namespace QueryGateway.Sql.Protected

open QueryGateway.Text

def schemas : List String := ["mysql", "information_schema", "performance_schema", "sys"]

def isSchema (s : List Char) : Bool := schemas.any fun p => p.toList == LetterCase.lower s

/-- The schema part of a table name, without white space and backticks around it. -/
def schemaPart (s : List Char) : List Char :=
  let front := match Split.cutFirst? '.' s with
    | some p => p.1
    | none => s
  Blank.strip (· == '`') (Blank.trim front)

def targets (s : List Char) : Bool := isSchema s || isSchema (schemaPart s)

/-- Refuses a table name that targets a protected schema. -/
def guardTable (table : String) : Except Failure Unit :=
  if targets table.toList then
    .error (Failure.invalid ("Modification of protected schema '" ++ table ++ "' is not allowed")
      "table" (.text table) .protectedSchema)
  else .ok ()

/-- Refuses a text that targets a protected schema; other values are let through. -/
def guardValue : Value → Except Failure Unit
  | .text table => guardTable table
  | _ => .ok ()

end QueryGateway.Sql.Protected
