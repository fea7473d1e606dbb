import QueryGateway.Settings.Source
import QueryGateway.Text.Parts

/-!
Settings of the server: its name, the tools it offers, how much it logs and, if none is given on the
command line, its connection string.
-/

set_option autoImplicit false
set_option relaxedAutoImplicit false

namespace QueryGateway.Settings

open QueryGateway.Input
open QueryGateway.Text

structure ServerSettings where
  serverName : String
  enabledTools : String
  logLevel : String
  connectionString : Option String
  deriving DecidableEq, Repr, Inhabited

namespace ServerSettings

def levels : List String := ["DEBUG", "INFO", "WARNING", "ERROR", "CRITICAL"]

/-- A log level, its letters in any case. -/
def level (v : Value) : Checked String :=
  (Coercion.text v).andThen fun s =>
    let capitals := String.ofList (LetterCase.upper s.toList)
    if levels.contains capitals then .good capitals
    else .refuse ("Value error, Invalid log level '" ++ s ++ "'")

/-- The names in a list with commas, without white space around them. -/
def toolNames (s : String) : List (List Char) :=
  ((Split.splitOn ',' s.toList).map Blank.trim).filter fun name => !name.isEmpty

/-- A list of tools in its plain form; no names at all stand for every tool. -/
def tools (v : Value) : Checked String :=
  (Coercion.text v).andThen fun s =>
    let names := toolNames s
    if names.isEmpty then .good "all"
    else .good (String.ofList (Split.joinWith [','] names))

def ofSource (s : Source) : Checked ServerSettings :=
  ServerSettings.mk <$> s.setting "server_name" "sqlgate" Coercion.text
    <*> s.setting "enabled_tools" "all" tools
    <*> s.setting "log_level" "INFO" level
    <*> s.setting "connection_string" none (Coercion.optional Coercion.text)

def ofValues (values : Fields) (environment : Environment) : Checked ServerSettings :=
  ofSource ⟨values, environment, "sqlgate_"⟩

/-- The names of the enabled tools, or nothing if every tool is enabled. -/
def enabledNames (s : ServerSettings) : Option (List String) :=
  if lower s.enabledTools == "all" then none
  else some ((Split.splitOn ',' s.enabledTools.toList).map String.ofList)

/-- The settings that were read before, or what the environment gives when there are none or they
are to be read again. The flag tells whether the settings are new. -/
def load (cached : Option ServerSettings) (again : Bool) (environment : Environment) :
    Checked (ServerSettings × Bool) :=
  match cached, again with
  | some s, false => .good (s, false)
  | _, _ => (fun s => (s, true)) <$> ofValues [] environment

end ServerSettings

end QueryGateway.Settings
