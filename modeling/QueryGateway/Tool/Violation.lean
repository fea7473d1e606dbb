import QueryGateway.Failure
import QueryGateway.Tool.Schema

/-!
Violations of schemas. Of all violations in a value the one that is reported lies nearest to the
root; of several at the same depth it is the one whose path comes last in order.
-/

set_option autoImplicit false
set_option relaxedAutoImplicit false

namespace QueryGateway.Tool

open QueryGateway.Value.Display (quoted?)

inductive Place
  | key (name : String)
  | index (n : Nat)
  deriving DecidableEq, Repr

/-- What is wrong with a part of a value, if the part can be written. -/
structure Violation where
  path : List Place
  message : Option String
  deriving DecidableEq, Repr

namespace Schema

def about (v : Value) (complaint : String) : Option String :=
  (quoted? v).map fun s => s ++ complaint

def wrongKind (ks : List ValueKind) : String :=
  " is not of type " ++ String.intercalate ", " (ks.map fun k => "'" ++ k.name ++ "'")

def wholeNumber? : Value → Option Int
  | .int n => some n
  | .float x => x.integer?
  | _ => none

/-- What is wrong with a whole number that has to lie within bounds. -/
def outOfBounds? (least : Int) (most : Option Int) (n : Int) : Option String :=
  if n < least then some (" is less than the minimum of " ++ toString least)
  else
    match most with
    | none => none
    | some m =>
      if m < n then some (" is greater than the maximum of " ++ toString m) else none

def tooShort? (least length : Nat) : Option String :=
  if length < least then some (if least = 1 then " should be non-empty" else " is too short")
  else none

/-- The first of some properties that an object lacks. -/
def lacking? (required : List String) (fields : Fields) : Option String :=
  required.find? fun name => !fields.has name

/-- The message about what is wrong with a value as such, whatever its parts are. The message
itself is missing where the value cannot be written. -/
def complaint? (s : Schema) (v : Value) : Option (Option String) :=
  if !s.kinds.any (fun k => k.admits v) then some (about v (wrongKind s.kinds))
  else
    match s, v with
    | .choice options _, .text t =>
      if options.contains t then none
      else some ((quoted? (texts options)).bind fun s => about v (" is not one of " ++ s))
    | .integer least most _, v => ((wholeNumber? v).bind (outOfBounds? least most)).map (about v)
    | .list _ least _, .list vs => (tooShort? least vs.length).map (about v)
    | .object _ required, .object fields =>
      (lacking? required fields).map fun name => about (.text name) " is a required property"
    | _, _ => none

def own (path : List Place) (s : Schema) (v : Value) : List Violation :=
  ((s.complaint? v).map fun message => ⟨path, message⟩).toList

mutual

def violations (path : List Place) (s : Schema) (v : Value) : List Violation :=
  own path s v ++
    match s with
    | .list item _ _ =>
      match v with
      | .list vs => vs.zipIdx.flatMap fun p => violations (path ++ [.index p.2]) item p.1
      | _ => []
    | .object properties _ =>
      match v with
      | .object fields => propertyViolations path properties fields
      | _ => []
    | _ => []

def propertyViolations (path : List Place) (properties : List (String × Schema))
    (fields : Fields) : List Violation :=
  match properties with
  | [] => []
  | (name, s) :: rest =>
    (match fields.get? name with
      | some v => violations (path ++ [.key name]) s v
      | none => []) ++ propertyViolations path rest fields

end

end Schema

def Place.precedes : Place → Place → Bool
  | .key a, .key b => a < b
  | .index m, .index n => m < n
  | .index _, .key _ => true
  | .key _, .index _ => false

/-- Whether one path comes before another of the same length. -/
def pathPrecedes : List Place → List Place → Bool
  | p :: ps, q :: qs => p.precedes q || (p == q && pathPrecedes ps qs)
  | _, _ => false

namespace Violation

/-- Whether a violation is rather reported than another. -/
def outranks (a b : Violation) : Bool :=
  a.path.length < b.path.length ||
    (a.path.length == b.path.length && pathPrecedes b.path a.path)

def foremost? : List Violation → Option Violation
  | [] => none
  | a :: rest => some (rest.foldl (fun best b => if b.outranks best then b else best) a)

end Violation

/-- What is reported to be wrong with a value. Every violation is put into words before one is
chosen. -/
def Schema.objection? (s : Schema) (v : Value) : Except Failure (Option String) :=
  let found := s.violations [] v
  if found.all fun violation => violation.message.isSome then
    .ok ((Violation.foremost? found).bind (·.message))
  else .error .unwritable

end QueryGateway.Tool
