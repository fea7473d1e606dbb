import QueryGateway.Input.Coercion
import QueryGateway.Number.Numeral
import QueryGateway.Text.LetterCase

/-!
Sources of settings. A field is looked up among explicit values first and in the environment next;
the letter case of its name does not count. Bounds are checked after a value has been read.
-/

set_option autoImplicit false
set_option relaxedAutoImplicit false

namespace QueryGateway.Settings

open QueryGateway.Input
open QueryGateway.Number
open QueryGateway.Text

abbrev Environment := List (String × String)

def lower (s : String) : String := String.ofList (LetterCase.lower s.toList)

/-- Where settings come from: explicit values, the environment, and the front of the names of its
variables, in small letters. -/
structure Source where
  values : Fields
  environment : Environment
  front : String

namespace Source

/-- The explicit value of a field: the first one under its name in any letter case. -/
def explicit? (s : Source) (name : String) : Option Value :=
  (s.values.find? fun e => lower e.1 == name).map (·.2)

/-- The variable of a field, the last one if the environment has several. -/
def inherited? (s : Source) (name : String) : Option Value :=
  (s.environment.reverse.find? fun e => lower e.1 == s.front ++ name).map fun e => .text e.2

def get? (s : Source) (name : String) : Option Value :=
  match s.explicit? name with
  | some v => some v
  | none => s.inherited? name

def setting {α : Type} (s : Source) (name : String) (default : α) (read : Value → Checked α) :
    Checked α :=
  match s.get? name with
  | some v => (read v).within name
  | none => .good default

end Source

inductive Bound
  | atLeast (n : Int)
  | atMost (n : Int)
  | above (n : Int)

def Bound.text : Bound → String
  | .atLeast n => "greater than or equal to " ++ toString n
  | .atMost n => "less than or equal to " ++ toString n
  | .above n => "greater than " ++ toString n

/-- Whether an order of a number against a bound respects it. -/
def Bound.admits : Bound → Option Ordering → Bool
  | .atLeast _, o => o == some .gt || o == some .eq
  | .atMost _, o => o == some .lt || o == some .eq
  | .above _, o => o == some .gt

def Bound.limit : Bound → Int
  | .atLeast n | .atMost n | .above n => n

def bounded {α : Type} (order : α → Int → Option Ordering) (bounds : List Bound) (a : α) :
    Checked α :=
  match bounds.find? fun b => !b.admits (order a b.limit) with
  | some b => .refuse ("Input should be " ++ b.text)
  | none => .good a

def boundedInteger (bounds : List Bound) (v : Value) : Checked Int :=
  (Coercion.integer v).andThen (bounded (fun a b => some (compare a b)) bounds)

def boundedNumber (bounds : List Bound) (v : Value) : Checked Binary64 :=
  (Coercion.number v).andThen (bounded Binary64.compareInt? bounds)

end QueryGateway.Settings
