import QueryGateway.Value

/-!
Results of reading structured input. A reading either gives a value or lists every issue found, each
with the path to the place that it is about. Readings that are combined keep the issues of all.
-/

set_option autoImplicit false
set_option relaxedAutoImplicit false

namespace QueryGateway.Input

/-- Something wrong with the input at some place. -/
structure Issue where
  path : List String
  message : String
  deriving DecidableEq, Repr

/-- An issue as text: where it is, unless it is about the whole input, and what it is. -/
def Issue.text (i : Issue) : String :=
  if i.path.isEmpty then i.message else String.intercalate "." i.path ++ ": " ++ i.message

def Issue.listText (issues : List Issue) : String :=
  String.intercalate "; " (issues.map Issue.text)

/-- A value, or everything that is wrong with the input. -/
inductive Checked (α : Type)
  | good (a : α)
  | bad (issues : List Issue)

namespace Checked

def refuse {α : Type} (message : String) : Checked α := .bad [⟨[], message⟩]

def map {α β : Type} (f : α → β) : Checked α → Checked β
  | .good a => .good (f a)
  | .bad issues => .bad issues

/-- Applies a function that was read to a value that was read, and joins the issues of both. -/
def apply {α β : Type} : Checked (α → β) → Checked α → Checked β
  | .good f, .good a => .good (f a)
  | .good _, .bad issues => .bad issues
  | .bad issues, .good _ => .bad issues
  | .bad issues, .bad more => .bad (issues ++ more)

instance : Applicative Checked where
  pure := .good
  map := map
  seq f a := apply f (a ())

def andThen {α β : Type} (a : Checked α) (f : α → Checked β) : Checked β :=
  match a with
  | .good a => f a
  | .bad issues => .bad issues

/-- Puts a step in front of the path of every issue. -/
def within {α : Type} (step : String) : Checked α → Checked α
  | .good a => .good a
  | .bad issues => .bad (issues.map fun i => ⟨step :: i.path, i.message⟩)

def value? {α : Type} : Checked α → Option α
  | .good a => some a
  | .bad _ => none

/-- Reads every item of a list, the place of each in the list in front of its issues. -/
def items {α : Type} (read : Value → Checked α) : Nat → List Value → Checked (List α)
  | _, [] => .good []
  | n, v :: vs => List.cons <$> (read v).within (toString n) <*> items read (n + 1) vs

end Checked

end QueryGateway.Input
