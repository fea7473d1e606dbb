import QueryGateway.Value

/-!
Schemas: what a tool tells its callers about its arguments. A schema has one form for each shape of
value that a tool takes, and is itself shown to callers as a value.
-/

set_option autoImplicit false
set_option relaxedAutoImplicit false

namespace QueryGateway.Tool

inductive ValueKind
  | text | integer | number | boolean | list | object | null
  deriving DecidableEq, Repr

namespace ValueKind

def name : ValueKind → String
  | .text => "string"
  | .integer => "integer"
  | .number => "number"
  | .boolean => "boolean"
  | .list => "array"
  | .object => "object"
  | .null => "null"

/-- Whether a value is of a kind. A floating-point number without a fraction counts as an integer,
and a truth value as no number. -/
def admits : ValueKind → Value → Bool
  | .text, .text _ => true
  | .integer, .int _ => true
  | .integer, .float x => x.integer?.isSome
  | .number, .int _ => true
  | .number, .float _ => true
  | .number, .decimal _ => true
  | .boolean, .bool _ => true
  | .list, .list _ => true
  | .object, .object _ => true
  | .null, .null => true
  | _, _ => false

end ValueKind

inductive Schema
  | plain (kinds : List ValueKind) (about : String)
  | choice (options : List String) (about : String)
  | integer (least : Int) (most : Option Int) (about : String)
  | list (item : Schema) (least : Nat) (about : String)
  | object (properties : List (String × Schema)) (required : List String)

namespace Schema

def single (kind : ValueKind) (about : String) : Schema := .plain [kind] about

def kinds : Schema → List ValueKind
  | .plain ks _ => ks
  | .choice _ _ => [.text]
  | .integer _ _ _ => [.integer]
  | .list _ _ _ => [.list]
  | .object _ _ => [.object]

def kindEntry : List ValueKind → String × Value
  | [k] => ("type", .text k.name)
  | ks => ("type", .list (ks.map fun k => .text k.name))

def description (about : String) : Fields :=
  if about.isEmpty then [] else [("description", .text about)]

def texts (ss : List String) : Value := .list (ss.map .text)

mutual

def value : Schema → Value
  | .plain ks about => .object (kindEntry ks :: description about)
  | .choice options about =>
    .object (kindEntry [.text] :: ("enum", texts options) :: description about)
  | .integer least most about =>
    .object (kindEntry [.integer] :: ("minimum", .int least) ::
      (match most with
        | some n => [("maximum", .int n)]
        | none => []) ++ description about)
  | .list item least about =>
    .object (kindEntry [.list] :: ("items", value item) ::
      (if least = 0 then [] else [("minItems", .int least)]) ++ description about)
  | .object properties required =>
    .object (kindEntry [.object] :: ("properties", .object (propertyValues properties)) ::
      if required.isEmpty then [] else [("required", texts required)])

def propertyValues : List (String × Schema) → Fields
  | [] => []
  | (name, s) :: rest => (name, value s) :: propertyValues rest

end

end Schema

end QueryGateway.Tool
