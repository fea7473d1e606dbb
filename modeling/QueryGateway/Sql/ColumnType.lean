import QueryGateway.Failure
import QueryGateway.Text.Classes
import QueryGateway.Text.LetterCase
import QueryGateway.Text.Parts

/-!
Column types. A plain type is an allowed base type with an optional size and the modifiers
`UNSIGNED` and `ZEROFILL`; a choice lists its values in quotes. Reading accepts white space between
the parts and letters of either case, and writing gives the normal form.
-/

set_option autoImplicit false
set_option relaxedAutoImplicit false

namespace QueryGateway.Sql

inductive ColumnType
  | plain (base : String) (size : List (List Char)) (modifiers : List (List Char))
  | choice (base : List Char) (values : List (List Char))
  deriving DecidableEq, Repr

namespace ColumnType

open QueryGateway.Text
open QueryGateway.Text.Blank (isBlank trim dropBlanks)

/-- Base types that take an optional size. -/
def plainBases : List String :=
  ["TINYINT", "SMALLINT", "MEDIUMINT", "INT", "INTEGER", "BIGINT", "DECIMAL", "NUMERIC", "FLOAT",
   "DOUBLE", "REAL", "BIT", "BOOLEAN", "BOOL", "DATE", "DATETIME", "TIMESTAMP", "TIME", "YEAR",
   "CHAR", "VARCHAR", "BINARY", "VARBINARY", "TINYBLOB", "BLOB", "MEDIUMBLOB", "LONGBLOB",
   "TINYTEXT", "TEXT", "MEDIUMTEXT", "LONGTEXT", "JSON"]

/-- Base types as a refusal lists them. -/
def listedBases : List String :=
  (plainBases.take 31) ++ ["ENUM", "SET"] ++ plainBases.drop 31

/-- A letter of the base type: a character that stands for an ASCII letter in a caseless match. -/
def isBaseLetter (c : Char) : Bool :=
  let d := LetterCase.fold c
  'a' ≤ d && d ≤ 'z'

def isValueChar (c : Char) : Bool :=
  isBaseLetter c || ('0' ≤ c && c ≤ '9') || c == '_' || c == ' ' || c == '.' || c == '-'

/-- A value in quotes, white space around it dropped. -/
def listedValue? (s : List Char) : Option (List Char) :=
  match trim s with
  | '\'' :: r =>
    if r.getLast? == some '\'' && r.dropLast.all isValueChar then some r.dropLast else none
  | _ => none

def listedValues? (s : List Char) : Option (List (List Char)) :=
  match dropBlanks s with
  | '(' :: r =>
    if r.getLast? == some ')' then (Split.splitOn ',' r.dropLast).mapM listedValue? else none
  | _ => none

def choice? (s : List Char) : Option ColumnType :=
  let t := trim s
  let ofBase (keyword : String) : Option ColumnType :=
    (LetterCase.afterKeyword? keyword t).bind fun r =>
      (listedValues? r).map fun values =>
        .choice (LetterCase.upper (t.take keyword.length)) values
  match ofBase "enum" with
  | some c => some c
  | none => ofBase "set"

/-- A number in digits of any script, white space around it dropped. -/
def sizeNumber? (s : List Char) : Option (List Char) :=
  let t := trim s
  if !t.isEmpty && t.all Digit.isDecimal then some t else none

def sizeNumbers? (s : List Char) : Option (List (List Char)) :=
  match Split.splitOn ',' s with
  | [a] => (sizeNumber? a).map fun n => [n]
  | [a, b] => (sizeNumber? a).bind fun n => (sizeNumber? b).map fun m => [n, m]
  | _ => none

/-- A size in parentheses, if one follows, and the rest. -/
def size? (s : List Char) : Option (List (List Char) × List Char) :=
  match dropBlanks s with
  | '(' :: r =>
    (Split.cutFirst? ')' r).bind fun p => (sizeNumbers? p.1).map fun size => (size, p.2)
  | _ => some ([], s)

def modifiers? (s : List Char) : Option (List (List Char)) :=
  let words := Blank.words s
  let spaced := match s with
    | [] => true
    | c :: _ => isBlank c
  let isModifier (w : List Char) : Bool :=
    LetterCase.isKeyword "unsigned" w || LetterCase.isKeyword "zerofill" w
  if spaced && words.all isModifier then some (words.map LetterCase.upper) else none

def plain? (s : List Char) : Option ColumnType :=
  let t := dropBlanks s
  let base := String.ofList (LetterCase.upper (t.takeWhile isBaseLetter))
  if plainBases.contains base then
    (size? (t.dropWhile isBaseLetter)).bind fun p =>
      (modifiers? p.2).map fun modifiers => .plain base p.1 modifiers
  else none

def ofChars? (s : List Char) : Option ColumnType :=
  match choice? s with
  | some c => some c
  | none => plain? s

def quotedValue (v : List Char) : List Char := '\'' :: v ++ ['\'']

def chars : ColumnType → List Char
  | .plain base size modifiers =>
    base.toList ++
      (if size.isEmpty then [] else '(' :: Split.joinWith [','] size ++ [')']) ++
      modifiers.flatMap fun m => ' ' :: m
  | .choice base values =>
    base ++ '(' :: Split.joinWith [','] (values.map quotedValue) ++ [')']

def text (t : ColumnType) : String := String.ofList t.chars

def ofValue : Value → Except Failure ColumnType
  | .text s =>
    match ofChars? s.toList with
    | some t => .ok t
    | none =>
      .error (Failure.invalid ("Unsupported column type: " ++ s) "type" (.text s) .columnType
        (some ("Allowed base types: " ++ String.intercalate ", " listedBases)))
  | _ => .error (Failure.invalid "Column type is required" "type" .null .columnType)

end ColumnType

end QueryGateway.Sql
