import QueryGateway.Value.Json

/-!
Values in objects whose keys are of any kind. Made portable, every key becomes its text, and of
entries whose keys come to the same text the last one counts, at the place of the first. A text of
an integer is made only up to a number of digits, so a key may have none, and a document neither.
-/

set_option autoImplicit false
set_option relaxedAutoImplicit false

namespace QueryGateway


def Value.isScalar : Value → Bool
  | .list _ | .tuple _ | .object _ => false
  | _ => true

/-- A value, or a container of values in which the keys of objects are of any kind. -/
inductive Nested
  | scalar (v : Value) (single : v.isScalar = true)
  | list (items : List Nested)
  | tuple (items : List Nested)
  | dict (entries : List (Value × Nested))

namespace Nested

mutual

/-- A value as one that might have keys of any kind. -/
def ofValue : Value → Nested
  | .list vs => .list (ofValues vs)
  | .tuple vs => .tuple (ofValues vs)
  | .object es => .dict (ofFields es)
  | .null => .scalar .null rfl
  | .bool b => .scalar (.bool b) rfl
  | .int i => .scalar (.int i) rfl
  | .float x => .scalar (.float x) rfl
  | .text s => .scalar (.text s) rfl
  | .decimal d => .scalar (.decimal d) rfl
  | .bytes kind content => .scalar (.bytes kind content) rfl
  | .uuid s => .scalar (.uuid s) rfl
  | .day d => .scalar (.day d) rfl
  | .clock c => .scalar (.clock c) rfl
  | .moment d c o => .scalar (.moment d c o) rfl
  | .duration u => .scalar (.duration u) rfl

/-- The items of a list, each as a value that might have keys of any kind. -/
def ofValues : List Value → List Nested
  | [] => []
  | v :: vs => ofValue v :: ofValues vs

/-- The entries of an object, with their keys as values. -/
def ofFields : List (String × Value) → List (Value × Nested)
  | [] => []
  | (k, v) :: es => (.text k, ofValue v) :: ofFields es

end

mutual

/-- A value with everything replaced that JSON has no kind for, keys included. -/
def portable? : Nested → Option Value
  | .scalar v _ => some v.portable
  | .list ns => (portableItems? ns).map .list
  | .tuple ns => (portableItems? ns).map .list
  | .dict es => (portableEntries? es).map fun fields => .object (Fields.update [] fields)

def portableItems? : List Nested → Option (List Value)
  | [] => some []
  | n :: ns => do
    let v ← n.portable?
    let vs ← portableItems? ns
    return v :: vs

/-- The entries of an object, the keys as texts and each value made portable. -/
def portableEntries? : List (Value × Nested) → Option Fields
  | [] => some []
  | (k, n) :: es => do
    let key ← Value.Display.text? k
    let v ← n.portable?
    let fields ← portableEntries? es
    return (key, v) :: fields

end

/-- A value made portable and written with one part to a line, if that can be done. -/
def document? (n : Nested) : Option String := n.portable?.bind Value.Json.text?

end Nested

end QueryGateway
