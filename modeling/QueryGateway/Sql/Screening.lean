import QueryGateway.Failure
import QueryGateway.Text.LetterCase
import QueryGateway.Text.Parts

/-!
Screening of text that callers write: filter values, raw queries and schema statements. The rules
look for whole words in any letter case, for comment marks and for a few sequences of these. They
refuse early what is obviously hostile; bound parameters are what keeps values out of statements.
-/

set_option autoImplicit false
set_option relaxedAutoImplicit false

namespace QueryGateway.Sql.Screening

open QueryGateway.Text
open QueryGateway.Text.LetterCase (isKeyword afterKeyword?)
open QueryGateway.Text.Runs (Run)

def isOneOf (keywords : List String) (r : Run) : Bool :=
  r.kind == .word && keywords.any fun k => isKeyword k r.text

def hasWord (keywords : List String) (s : List Char) : Bool :=
  (Runs.ofText s).any (isOneOf keywords)

def hasMark (marks : List String) (s : List Char) : Bool :=
  marks.any fun m => Split.occursIn m.toList s

def valueWords : List String :=
  ["union", "select", "insert", "update", "delete", "drop", "create", "alter", "exec", "execute",
   "script", "declare", "truncate"]

def commentMarks : List String := ["--", "/*", "*/"]

/-- How far a line has come toward a connective, an equals sign and another connective. -/
inductive Progress
  | nothing | connective | equation | found
  deriving DecidableEq, Repr

/-- What one run adds to the progress; a line break starts again. -/
def Progress.step (p : Progress) (r : Run) : Progress :=
  match p with
  | .found => .found
  | .nothing => if isOneOf ["or", "and"] r then .connective else .nothing
  | .connective =>
    if r.text.contains '\n' then .nothing
    else if r.text.contains '=' then .equation else .connective
  | .equation =>
    if r.text.contains '\n' then .nothing
    else if isOneOf ["or", "and"] r then .found
    else .equation

/-- Whether some line holds a connective, an equals sign and another connective in this order. -/
def hasEquation (s : List Char) : Bool :=
  (Runs.ofText s).foldl Progress.step .nothing == .found

/-- Whether a text looks like an attempt at injection. -/
def isSuspicious (s : List Char) : Bool :=
  hasWord valueWords s || hasMark commentMarks s || hasEquation s

/-- Whether a value looks like an attempt at injection; only texts do. -/
def isSuspiciousValue : Value → Bool
  | .text s => isSuspicious s.toList
  | _ => false

/-- Words that start a statement that writes. -/
def writeWords : List String :=
  ["insert", "update", "delete", "drop", "create", "alter", "truncate", "exec", "execute"]

def endsStatement (r : Run) : Bool := r.text.getLast? == some ';'

/-- Whether a statement that writes follows a semicolon. -/
def hasStackedWrite : List Run → Bool
  | [] => false
  | r :: rs =>
    (endsStatement r &&
      match rs with
      | q :: qs =>
        if q.kind == .blank then qs.head?.any (isOneOf ["drop", "delete", "update", "insert"])
        else isOneOf ["drop", "delete", "update", "insert"] q
      | [] => false) ||
    hasStackedWrite rs

/-- What follows a keyword and the white space after it. -/
def afterSpacedKeyword? (keyword : String) (s : List Char) : Option (List Char) :=
  (afterKeyword? keyword s).bind Blank.afterBlanks?

/-- Whether a text begins with a union with a second query. -/
def startsUnion (s : List Char) : Bool :=
  ((afterSpacedKeyword? "union" s).bind (afterKeyword? "select")).isSome

/-- Whether a text begins with a query of everything in the schema catalog. -/
def startsCatalogScan (s : List Char) : Bool :=
  match afterSpacedKeyword? "select" s with
  | some ('*' :: r) =>
    (((Blank.afterBlanks? r).bind (afterSpacedKeyword? "from")).bind
      (afterKeyword? "information_schema")).isSome
  | _ => false

/-- Whether a query is dangerous even where writing is allowed. -/
def isDangerous (s : List Char) : Bool :=
  hasStackedWrite (Runs.ofText s) || hasMark commentMarks s ||
    Split.anySuffix (fun t => startsUnion t || startsCatalogScan t) s

def query (allowWrite : Bool) (v : Value) : Except Failure String :=
  let missing := Failure.invalid "Query is required" "query" .null .missingParameter
  match v with
  | .text q =>
    let s := q.toList
    if s.all Blank.isBlank then .error missing
    else if !allowWrite && hasWord writeWords s then
      .error (Failure.invalid "Write operations are not allowed" "query" .null .writeRefused
        (some "Set allowWrite: true to enable write statements"))
    else if isDangerous s then
      .error (Failure.invalid "Potentially dangerous SQL patterns detected in query" "query" .null
        .injection (some "Remove comments, chained statements and information_schema scans"))
    else .ok q
  | _ => .error missing

def schemaVerbs : List String := ["create", "alter", "drop", "truncate"]

def schemaObjects : List String := ["table", "index", "view", "procedure", "function", "trigger"]

def hasSchemaPhrase : List Run → Bool
  | v :: b :: o :: rs =>
    (isOneOf schemaVerbs v && b.kind == .blank && isOneOf schemaObjects o) ||
      hasSchemaPhrase (b :: o :: rs)
  | _ => false

def schemaStatement (v : Value) : Except Failure String :=
  let refused := Failure.invalid
    "Invalid DDL statement. Only CREATE, ALTER, DROP, TRUNCATE operations are allowed" "statement"
    .null .validation (some "Use e.g. CREATE TABLE, ALTER TABLE, DROP INDEX")
  match v with
  | .text s => if hasSchemaPhrase (Runs.ofText s.toList) then .ok s else .error refused
  | _ => .error refused

end QueryGateway.Sql.Screening
