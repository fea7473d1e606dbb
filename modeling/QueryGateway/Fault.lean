import QueryGateway.Value.Display

/-!
Faults: what the gateway reports to its callers. A handful of classes fix the category, a code
names the reason, and a class has a code and a retry flag of its own that a fault may override.
-/

set_option autoImplicit false
set_option relaxedAutoImplicit false

namespace QueryGateway

inductive Code
  | configuration | configurationInvalid
  | validation | identifier | missingParameter | injection | writeRefused | protectedSchema
  | columnType | unknownTool
  | resourceMissing | tableMissing | columnMissing | databaseMissing
  | conflict | duplicateKey | alreadyExists
  | transient | timeout | lock | connection
  | accessDenied
  | malformedSql
  | execution | queryExecution
  deriving DecidableEq, Repr, Inhabited

/-- The text of a code: its category and a number within it. -/
def Code.text : Code → String
  | .configuration => "CONFIG_001"
  | .configurationInvalid => "CONFIG_002"
  | .validation => "VALIDATION_001"
  | .identifier => "VALIDATION_002"
  | .missingParameter => "VALIDATION_003"
  | .injection => "VALIDATION_004"
  | .writeRefused => "VALIDATION_005"
  | .protectedSchema => "VALIDATION_006"
  | .columnType => "VALIDATION_007"
  | .unknownTool => "VALIDATION_008"
  | .resourceMissing => "RESOURCE_001"
  | .tableMissing => "RESOURCE_002"
  | .columnMissing => "RESOURCE_003"
  | .databaseMissing => "RESOURCE_004"
  | .conflict => "CONFLICT_001"
  | .duplicateKey => "CONFLICT_002"
  | .alreadyExists => "CONFLICT_003"
  | .transient => "RETRY_001"
  | .timeout => "RETRY_002"
  | .lock => "RETRY_003"
  | .connection => "RETRY_004"
  | .accessDenied => "ACCESS_001"
  | .malformedSql => "SYNTAX_001"
  | .execution => "EXECUTION_001"
  | .queryExecution => "EXECUTION_002"

def Code.all : List Code :=
  [.configuration, .configurationInvalid, .validation, .identifier, .missingParameter, .injection,
   .writeRefused, .protectedSchema, .columnType, .unknownTool, .resourceMissing, .tableMissing,
   .columnMissing, .databaseMissing, .conflict, .duplicateKey, .alreadyExists, .transient, .timeout,
   .lock, .connection, .accessDenied, .malformedSql, .execution, .queryExecution]

def Code.ofText? (s : String) : Option Code := Code.all.find? fun c => c.text == s

inductive FaultClass
  | general | configuration | validation | notFound | conflict | transient | accessDenied
  | sqlText | database
  deriving DecidableEq, Repr, Inhabited

namespace FaultClass

def name : FaultClass → String
  | .general => "SQLGateError"
  | .configuration => "ConfigurationError"
  | .validation => "ValidationError"
  | .notFound => "NotFoundError"
  | .conflict => "ConflictError"
  | .transient => "TransientError"
  | .accessDenied => "AccessDeniedError"
  | .sqlText => "SQLSyntaxError"
  | .database => "DatabaseError"

def all : List FaultClass :=
  [.general, .configuration, .validation, .notFound, .conflict, .transient, .accessDenied,
   .sqlText, .database]

def ofName? (s : String) : Option FaultClass := all.find? fun c => c.name == s

def defaultCode : FaultClass → Code
  | .general => .execution
  | .configuration => .configuration
  | .validation => .validation
  | .notFound => .resourceMissing
  | .conflict => .conflict
  | .transient => .transient
  | .accessDenied => .accessDenied
  | .sqlText => .malformedSql
  | .database => .queryExecution

/-- Whether faults of a class may be retried, unless they say otherwise. -/
def retryable : FaultClass → Bool
  | .transient => true
  | _ => false

end FaultClass

/-- A failure with everything a caller may be told about it. -/
structure Fault where
  category : FaultClass
  code : Code
  message : String
  hint : Option String := none
  details : Fields := []
  retryable : Bool := category.retryable
  deriving Repr, Inhabited

namespace Fault

def ofClass (category : FaultClass) (message : String) : Fault :=
  ⟨category, category.defaultCode, message, none, [], category.retryable⟩

def text (f : Fault) : String := "[" ++ f.code.text ++ "] " ++ f.message

/-- The error envelope: type, code and message, and the hint unless it is empty. -/
def envelope (f : Fault) : Fields :=
  [("error", .bool true), ("type", .text f.category.name), ("code", .text f.code.text),
   ("message", .text f.message)] ++
    match f.hint with
    | some h => if h.isEmpty then [] else [("details", .text h)]
    | none => []

/-- The most characters of an offending value that a fault shows. -/
def shownLength : Nat := 100

def cut (s : List Char) : String :=
  if shownLength < s.length then String.ofList (s.take shownLength ++ ['.', '.', '.'])
  else String.ofList s

def shown? (v : Value) : Option String :=
  if v.isWritable then some (cut (Value.Display.chars v)) else none

/-- A refusal of input: which field, what is shown of its value, why. -/
def invalid (message : String) (field : String := "") (shown : Option String := none)
    (code : Code := .validation) (hint : Option String := none) : Fault :=
  ⟨.validation, code, message, hint,
    (if field.isEmpty then [] else [("field", .text field)]) ++
      (match shown with
        | some s => [("value", .text s)]
        | none => []),
    false⟩

/-- Details that name a resource, kind and name left out where they are empty. -/
def resource (kind name : String) : Fields :=
  (if kind.isEmpty then [] else [("resource_type", .text kind)]) ++
    if name.isEmpty then [] else [("resource_name", .text name)]

def missingCode (kind : String) : Code :=
  if kind == "table" then .tableMissing
  else if kind == "column" then .columnMissing
  else if kind == "database" then .databaseMissing
  else .resourceMissing

/-- A missing table, column or other resource. -/
def notFound (message kind name : String) (hint : Option String := none) : Fault :=
  ⟨.notFound, missingCode kind, message, hint, resource kind name, false⟩

/-- A table or column that exists already. -/
def conflicting (message kind name : String) : Fault :=
  ⟨.conflict, .alreadyExists, message, none, resource kind name, false⟩

def withDetails (f : Fault) (details : Fields) : Fault :=
  ⟨f.category, f.code, f.message, f.hint, Fields.update details f.details, f.retryable⟩

end Fault

end QueryGateway
