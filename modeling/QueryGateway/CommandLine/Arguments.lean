import QueryGateway.CommandLine.Word

/-!
Arguments of the command line: a connection string, a selection of tools, and whether much is to be
logged. Both texts may be left out, and both have to stand in one place, not around an option.
-/

set_option autoImplicit false
set_option relaxedAutoImplicit false

namespace QueryGateway.CommandLine

structure Arguments where
  connection : Option String := none
  tools : Option String := none
  verbose : Bool := false
  deriving DecidableEq, Repr, Inhabited

/-- Why the program ends at the command line: a question about it is answered, or it is misused. -/
inductive Halt
  | help | version | misuse
  deriving DecidableEq, Repr

/-- How far the texts have been read: not at all, up to the mark that ends the options, up to the
first text, up to the second, or no more are taken. -/
inductive Phase
  | untouched | marked | first | second | closed
  deriving DecidableEq, Repr

/-- What has been read of a command line; `excess` tells of a word that has no place. -/
structure Progress where
  arguments : Arguments := {}
  phase : Phase := .untouched
  excess : Bool := false
  deriving DecidableEq, Repr

namespace Progress

/-- Reading after an option: a place for texts that was begun is left. -/
def leavePlace (p : Progress) : Progress :=
  { p with phase := if p.phase = .untouched then .untouched else .closed }

def excessive (p : Progress) : Progress := { p with excess := true }

def obey (p : Progress) : Flag → Except Halt Progress
  | .help => .error .help
  | .version => .error .version
  | .verbose => .ok { p with arguments := { p.arguments with verbose := true } }

/-- The short options of a word with one dash, which has to hold nothing else. -/
def flagsOf (flag : Flag) : List Char → Except Halt (List Flag)
  | [] => .ok [flag]
  | c :: more =>
    match Flag.ofLetter? c with
    | none => .error .misuse
    | some next => (flagsOf next more).map (flag :: ·)

/-- Reading after a text. A second text that is itself the mark that ends the options says
nothing. -/
def afterText (p : Progress) (s : List Char) : Progress :=
  match p.phase with
  | .untouched | .marked =>
    { p with
      arguments := { p.arguments with connection := some (String.ofList s) }
      phase := .first }
  | .first =>
    { p with
      arguments := { p.arguments with
        tools := if s = ['-', '-'] then none else some (String.ofList s) }
      phase := .second }
  | .second | .closed => p.excessive

/-- Reading after the mark that ends the options. -/
def afterEnding (p : Progress) : Progress :=
  match p.phase with
  | .untouched => { p with phase := .marked }
  | .marked | .first | .second => p
  | .closed => p.excessive

def read (p : Progress) : Word → Except Halt Progress
  | .plain s => .ok (p.afterText s)
  | .ending => .ok p.afterEnding
  | .unknown => .ok p.leavePlace.excessive
  | .long _ (some _) => .error .misuse
  | .long flag none => p.leavePlace.obey flag
  | .short flag more => (flagsOf flag more).bind fun flags => flags.foldlM obey p.leavePlace

end Progress

namespace Arguments

def ofLine (line : List String) : Except Halt Arguments :=
  match Word.ofLine (line.map String.toList) with
  | none => .error .misuse
  | some words =>
    match words.foldlM Progress.read {} with
    | .error h => .error h
    | .ok p => if p.excess then .error .misuse else .ok p.arguments

end Arguments

end QueryGateway.CommandLine
