import QueryGateway.Value

/-!
Keys of any kind. Numbers of different kinds are the same key if they are equal, and what is no
number is the same as nothing. Entries keep the place and the key that came first.
-/

set_option autoImplicit false
set_option relaxedAutoImplicit false

namespace QueryGateway

open QueryGateway.Number

abbrev Entries := List (Value × Value)

def Fields.entries (fields : Fields) : Entries := fields.map fun e => (.text e.1, e.2)

namespace Value.Key

inductive Problem
  | changeable (kind : String)
  | signalling
  deriving DecidableEq, Repr

def Problem.text : Problem → String
  | .changeable kind => "unhashable type: '" ++ kind ++ "'"
  | .signalling => "Cannot hash a signaling NaN value"

mutual

/-- What keeps a value from being a key: it may change, it signals, or one of its parts does so. -/
def problem? : Value → Option Problem
  | .list vs => some (.changeable (Value.list vs).kindName)
  | .object es => some (.changeable (Value.object es).kindName)
  | .bytes .growable b => some (.changeable (Value.bytes .growable b).kindName)
  | .decimal (.nan _ true _) => some .signalling
  | .tuple vs => firstProblem? vs
  | _ => none

def firstProblem? : List Value → Option Problem
  | [] => none
  | v :: vs => (problem? v).or (firstProblem? vs)

end

def number? : Value → Option Decimal
  | .bool b => some (.ofInt (if b then 1 else 0))
  | .int i => some (.ofInt i)
  | .float x => some (.ofBinary64 x)
  | .decimal d => some d
  | _ => none

mutual

def same : Value → Value → Bool
  | .tuple vs, .tuple ws => sameItems vs ws
  | .null, .null => true
  | .text s, .text t => s == t
  | .bytes _ a, .bytes _ b => a == b
  | .uuid s, .uuid t => s == t
  | .day d, .day e => d == e
  | .clock c, .clock d => c == d
  | .moment d c o, .moment e f p => d == e && c == f && o == p
  | .duration u, .duration w => u == w
  | v, w =>
    match number? v, number? w with
    | some a, some b => a.isEqual b
    | _, _ => false

def sameItems : List Value → List Value → Bool
  | [], [] => true
  | v :: vs, w :: ws => same v w && sameItems vs ws
  | _, _ => false

end

end Value.Key

namespace Entries

/-- Gives a key a value: in its place if it is present, else at the end. -/
def put (key value : Value) : Entries → Entries
  | [] => [(key, value)]
  | (k, v) :: es => if Value.Key.same k key then (k, value) :: es else (k, v) :: put key value es

def update (entries others : Entries) : Entries :=
  others.foldl (fun acc e => put e.1 e.2 acc) entries

def fields : Entries → Fields
  | [] => []
  | (.text k, v) :: es => (k, v) :: fields es
  | _ :: es => fields es

end Entries

end QueryGateway
