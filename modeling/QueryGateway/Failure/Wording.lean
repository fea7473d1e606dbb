import QueryGateway.Failure.Symptom
import QueryGateway.Settings.Database

/-!
Failures told as faults. The wording names the server and the database, never how to log in; text of
the driver is passed on only where it names what the caller supplied.
-/

set_option autoImplicit false
set_option relaxedAutoImplicit false

namespace QueryGateway.Failure

open QueryGateway.Settings (DatabaseSettings)
open QueryGateway.Text

def addressOf : Option DatabaseSettings → String
  | none => "the MySQL server"
  | some c => c.host ++ ":" ++ toString c.port

def databaseOf : Option DatabaseSettings → String
  | none => "the configured database"
  | some c => if c.database.isEmpty then "the configured database" else c.database

/-- What follows a fixed beginning of a text. -/
def afterFront? (front : String) (s : List Char) : Option (List Char) :=
  if front.toList.isPrefixOf s then some (s.drop front.length) else none

/-- A text in single quotes after a fixed beginning, and the rest. -/
def quotedAfter? (front : String) (s : List Char) : Option (List Char × List Char) :=
  (afterFront? (front ++ "'") s).bind fun r => Split.cutFirst? '\'' r

/-- The entry and the key of the first complaint about a duplicate in a message. -/
def duplicate? : List Char → Option (List Char × List Char)
  | [] => none
  | c :: r =>
    let here :=
      (quotedAfter? "Duplicate entry " (c :: r)).bind fun p =>
        (quotedAfter? " for key " p.2).map fun q => (p.1, q.1)
    match here with
    | some d => some d
    | none => duplicate? r

def duplicateText (message : String) : String :=
  match duplicate? message.toList with
  | some (entry, key) =>
    "Duplicate entry '" ++ String.ofList entry ++ "' for key '" ++ String.ofList key ++ "'"
  | none => "Duplicate entry"

/-- The wording of a symptom: class, code if it is not that of the class, message and hint. -/
structure Wording where
  category : FaultClass
  message : String
  code : Option Code := none
  hint : Option String := none

def wording (target : Option DatabaseSettings) (message : String) : Symptom → Wording
  | .accessDenied | .databaseAccessDenied | .tableAccessDenied =>
    ⟨.accessDenied, "Database access denied on " ++ addressOf target, none,
      some "Check the MySQL credentials and verify the user has the required privileges"⟩
  | .unknownDatabase =>
    ⟨.notFound,
      "Database '" ++ databaseOf target ++ "' does not exist on " ++ addressOf target,
      some .databaseMissing, some "Create the database or verify the connection string"⟩
  | .unknownTable =>
    ⟨.notFound, "Table does not exist in database '" ++ databaseOf target ++ "'",
      some .tableMissing, some "Use the 'list' tool to see available tables"⟩
  | .unknownColumn =>
    ⟨.notFound, "Unknown column in query: " ++ message, some .columnMissing,
      some "Use 'describe_table' to see available columns"⟩
  | .cannotDrop =>
    ⟨.notFound, "Column or index does not exist: " ++ message, none,
      some "Use 'describe_table' to see available columns"⟩
  | .duplicateEntry =>
    ⟨.conflict, duplicateText message ++ ". A record with this unique value already exists",
      some .duplicateKey, none⟩
  | .duplicateColumn | .duplicateIndex | .tableExists =>
    ⟨.conflict, message, some .alreadyExists, none⟩
  | .malformedSql =>
    ⟨.sqlText, "SQL syntax error: " ++ message, none, some "Check your SQL syntax"⟩
  | .lockTimeout =>
    ⟨.transient, "Lock wait timeout exceeded. The table is locked by another transaction",
      some .lock, some "The operation was retried but still failed; try again later"⟩
  | .deadlock =>
    ⟨.transient, "Deadlock detected. The transaction was rolled back", some .lock,
      some "You can retry the operation"⟩
  | .refused | .socketFailed | .hostUnreachable =>
    ⟨.transient, "Connection refused to MySQL server at " ++ addressOf target, some .connection,
      some "Ensure MySQL is running and accessible at this address"⟩
  | .timedOut =>
    ⟨.transient, "Connection timeout to MySQL server at " ++ addressOf target, some .timeout,
      some "Check network connectivity and firewall settings"⟩
  | .poolTimeout =>
    ⟨.transient, "Timed out waiting for a free pooled connection", some .timeout,
      some "Reduce concurrent requests or raise the connection limit"⟩
  | .connectionLost | .reset | .brokenPipe | .serverGone | .serverLost =>
    ⟨.transient, "MySQL connection was lost", some .connection,
      some "This may be due to network issues or a MySQL server restart"⟩
  | .unknownHost =>
    ⟨.database,
      "MySQL host '" ++ ((target.map DatabaseSettings.host).getD "unknown") ++ "' not found",
      some .connection, some "Check the hostname in your connection string"⟩

/-- Whether a failed statement broke a uniqueness constraint, as far as its message tells. -/
def breaksUniqueness (f : Failure) (message : String) : Bool :=
  match f.kind with
  | .statement _ true _ =>
    let s := message.toList.map LetterCase.fold
    Split.occursIn "unique".toList s || Split.occursIn "duplicate".toList s
  | _ => false

/-- What is said about the number of the server, if there is one. -/
def numberText (f : Failure) : Except Failure String :=
  match f.unwrapped.number? with
  | some n =>
    (written (Value.Display.text? (.int n))).map fun s => " (Error code: " ++ s ++ ")"
  | none => .ok ""

def unknownWording (f : Failure) (message : String) : Except Failure Wording :=
  if breaksUniqueness f message then
    .ok ⟨.conflict, message ++ ". A record with this unique value already exists",
      some .duplicateKey, none⟩
  else
    (numberText f).map fun number =>
      ⟨.database, "Database error: " ++ message ++ number, none, none⟩

def Wording.fault (w : Wording) (details : Fields) : Fault :=
  ⟨w.category, w.code.getD w.category.defaultCode, w.message, w.hint, details,
    w.category.retryable⟩

/-- The fault that tells a failure. What the driver said is put into words whatever the symptom is,
so there is no fault where it cannot be. -/
def toFault (target : Option DatabaseSettings) (f : Failure) : Except Failure Fault :=
  match f.fault? with
  | some g => .ok g
  | none => do
    let symptom ← Symptom.ofFailure? f
    let message ← f.driverMessage
    match symptom with
    | some s => return (wording target message s).fault [("driver_error", .text s.name)]
    | none => return (← unknownWording f message).fault []

end QueryGateway.Failure
