import QueryGateway.Number.Binary64
import QueryGateway.Number.Decimal

/-!
Values as callers send them and database drivers return them: the JSON kinds, and the kinds that
JSON lacks. Objects keep the order of their entries.
-/

set_option autoImplicit false
set_option relaxedAutoImplicit false

namespace QueryGateway

open QueryGateway.Number (Binary64 Decimal)

/-- The three ways in which drivers hand out bytes. -/
inductive ByteKind
  | fixed | growable | view
  deriving DecidableEq, Repr

structure Day where
  year : Nat
  month : Nat
  day : Nat
  deriving DecidableEq, Repr

structure Clock where
  hour : Nat
  minute : Nat
  second : Nat
  microsecond : Nat
  deriving DecidableEq, Repr

inductive Value
  | null
  | bool (b : Bool)
  | int (i : Int)
  | float (x : Binary64)
  | text (s : String)
  | decimal (d : Decimal)
  | bytes (kind : ByteKind) (content : List UInt8)
  | uuid (s : String)
  | day (d : Day)
  | clock (c : Clock)
  | moment (d : Day) (c : Clock) (offsetMinutes : Option Int)
  | duration (microseconds : Int)
  | list (items : List Value)
  | tuple (items : List Value)
  | object (entries : List (String × Value))
  deriving Repr, Inhabited

abbrev Fields := List (String × Value)

namespace Fields

def get? (fields : Fields) (key : String) : Option Value :=
  (fields.find? fun e => e.1 == key).map (·.2)

def has (fields : Fields) (key : String) : Bool := fields.any fun e => e.1 == key

def keys (fields : Fields) : List String := fields.map (·.1)

/-- Gives a key a value: in its place if it is present, else at the end. -/
def put (fields : Fields) (key : String) (value : Value) : Fields :=
  if fields.has key then fields.map fun e => if e.1 == key then (key, value) else e
  else fields ++ [(key, value)]

/-- The entries with those of another object put in one by one. -/
def update (fields others : Fields) : Fields :=
  others.foldl (fun acc e => acc.put e.1 e.2) fields

def erase (fields : Fields) (key : String) : Fields := fields.filter fun e => e.1 != key

end Fields

namespace Value

/-- Whether a value counts as true: zeros, empty texts and empty containers do not. -/
def isTruthy : Value → Bool
  | .null => false
  | .bool b => b
  | .int i => i != 0
  | .float x => !x.isZero
  | .text s => !s.isEmpty
  | .decimal d => !d.isZero
  | .bytes _ b => !b.isEmpty
  | .duration u => u != 0
  | .list xs | .tuple xs => !xs.isEmpty
  | .object es => !es.isEmpty
  | .uuid _ | .day _ | .clock _ | .moment _ _ _ => true

/-- The name of a value's kind, as error details give it. -/
def kindName : Value → String
  | .null => "NoneType"
  | .bool _ => "bool"
  | .int _ => "int"
  | .float _ => "float"
  | .text _ => "str"
  | .decimal _ => "Decimal"
  | .bytes .fixed _ => "bytes"
  | .bytes .growable _ => "bytearray"
  | .bytes .view _ => "memoryview"
  | .uuid _ => "UUID"
  | .day _ => "date"
  | .clock _ => "time"
  | .moment _ _ _ => "datetime"
  | .duration _ => "timedelta"
  | .list _ => "list"
  | .tuple _ => "tuple"
  | .object _ => "dict"

/-- The name of a value's kind with where it is defined, as some failures word it. -/
def fullKindName : Value → String
  | .decimal _ => "decimal.Decimal"
  | .day _ => "datetime.date"
  | .clock _ => "datetime.time"
  | .moment _ _ _ => "datetime.datetime"
  | .duration _ => "datetime.timedelta"
  | v => v.kindName

def ofText? (s : Option String) : Value :=
  match s with
  | some s => .text s
  | none => .null

def ofInt? (i : Option Int) : Value :=
  match i with
  | some i => .int i
  | none => .null

end Value

end QueryGateway
