import QueryGateway.Value.Key

/-!
Entries that a value makes up: an object is taken as it is, and a list of pairs of keys and values
is put together. An empty value of any kind makes up no entries.
-/

set_option autoImplicit false
set_option relaxedAutoImplicit false

namespace QueryGateway.Value.Pairs

/-- Why a value makes up no entries. -/
inductive Problem
  | notIterable (kind : String)
  | notPair (place : Nat)
  | wrongLength (place length : Nat)
  | unusableKey (problem : Key.Problem)
  deriving DecidableEq, Repr

def Problem.text : Problem → String
  | .notIterable kind => "'" ++ kind ++ "' object is not iterable"
  | .notPair place =>
    "cannot convert dictionary update sequence element #" ++ toString place ++ " to a sequence"
  | .wrongLength place length =>
    "dictionary update sequence element #" ++ toString place ++ " has length " ++
      toString length ++ "; 2 is required"
  | .unusableKey problem => problem.text

def keyed (k v : Value) : Except Problem (Value × Value) :=
  match Key.problem? k with
  | some p => .error (.unusableKey p)
  | none => .ok (k, v)

def parts? : Value → Option (List Value)
  | .text s => some (s.toList.map fun c => .text (String.ofList [c]))
  | .list vs => some vs
  | .tuple vs => some vs
  | .object es => some (es.map fun e => .text e.1)
  | .bytes _ bs => some (bs.map fun b => .int b.toNat)
  | _ => none

def ofItem (place : Nat) (v : Value) : Except Problem (Value × Value) :=
  match parts? v with
  | some [k, w] => keyed k w
  | some vs => .error (.wrongLength place vs.length)
  | none => .error (.notPair place)

/-- The entries that the values from a place on make up, up to the first that makes up none. -/
def ofItems : Nat → List Value → Entries × Option Problem
  | _, [] => ([], none)
  | place, v :: vs =>
    match ofItem place v with
    | .error p => ([], some p)
    | .ok entry =>
      let rest := ofItems (place + 1) vs
      (entry :: rest.1, rest.2)

/-- The entries that a value makes up as far as it does, and what kept it from going on. -/
def gathered (v : Value) : Entries × Option Problem :=
  if !v.isTruthy then ([], none)
  else
    match v with
    | .object fields => (Fields.entries fields, none)
    | v =>
      match parts? v with
      | some vs => ofItems 0 vs
      | none => ([], some (.notIterable v.fullKindName))

def entriesOf (v : Value) : Except Problem Entries :=
  match gathered v with
  | (entries, none) => .ok (Entries.update [] entries)
  | (_, some p) => .error p

/-- The fields that a value makes up; a key that is no text means nothing. -/
def fieldsOf (v : Value) : Except Problem Fields := (entriesOf v).map Entries.fields

end QueryGateway.Value.Pairs
