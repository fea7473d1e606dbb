import QueryGateway.Failure
import QueryGateway.Text.LetterCase
import QueryGateway.Text.Parts

/-!
Symptoms: what a failure of the database amounts to, whichever driver raised it. A number of the
server decides alone; else the operating system, a connection known to be lost and last the wording
of the message are looked at, in this order.
-/

set_option autoImplicit false
set_option relaxedAutoImplicit false

namespace QueryGateway

open QueryGateway.Text

inductive Symptom
  | databaseAccessDenied | accessDenied | unknownDatabase | tableExists | unknownColumn
  | duplicateColumn | duplicateIndex | duplicateEntry | malformedSql | cannotDrop
  | tableAccessDenied | unknownTable | lockTimeout | deadlock
  | socketFailed | hostUnreachable | unknownHost | serverGone | serverLost
  | refused | reset | timedOut | brokenPipe | poolTimeout | connectionLost
  deriving DecidableEq, Repr

namespace Symptom

def name : Symptom → String
  | .databaseAccessDenied => "ER_DBACCESS_DENIED_ERROR"
  | .accessDenied => "ER_ACCESS_DENIED_ERROR"
  | .unknownDatabase => "ER_BAD_DB_ERROR"
  | .tableExists => "ER_TABLE_EXISTS_ERROR"
  | .unknownColumn => "ER_BAD_FIELD_ERROR"
  | .duplicateColumn => "ER_DUP_FIELDNAME"
  | .duplicateIndex => "ER_DUP_KEYNAME"
  | .duplicateEntry => "ER_DUP_ENTRY"
  | .malformedSql => "ER_PARSE_ERROR"
  | .cannotDrop => "ER_CANT_DROP_FIELD_OR_KEY"
  | .tableAccessDenied => "ER_TABLEACCESS_DENIED_ERROR"
  | .unknownTable => "ER_NO_SUCH_TABLE"
  | .lockTimeout => "ER_LOCK_WAIT_TIMEOUT"
  | .deadlock => "ER_LOCK_DEADLOCK"
  | .socketFailed => "CR_CONNECTION_ERROR"
  | .hostUnreachable => "CR_CONN_HOST_ERROR"
  | .unknownHost => "CR_UNKNOWN_HOST"
  | .serverGone => "CR_SERVER_GONE_ERROR"
  | .serverLost => "CR_SERVER_LOST"
  | .refused => "ECONNREFUSED"
  | .reset => "ECONNRESET"
  | .timedOut => "ETIMEDOUT"
  | .brokenPipe => "EPIPE"
  | .poolTimeout => "POOL_TIMEOUT"
  | .connectionLost => "PROTOCOL_CONNECTION_LOST"

/-- The numbers of the server and the client library, with what they mean. -/
def numbers : List (Int × Symptom) :=
  [(1044, .databaseAccessDenied), (1045, .accessDenied), (1049, .unknownDatabase),
   (1050, .tableExists), (1054, .unknownColumn), (1060, .duplicateColumn), (1061, .duplicateIndex),
   (1062, .duplicateEntry), (1064, .malformedSql), (1091, .cannotDrop), (1142, .tableAccessDenied),
   (1146, .unknownTable), (1205, .lockTimeout), (1213, .deadlock), (2002, .socketFailed),
   (2003, .hostUnreachable), (2005, .unknownHost), (2006, .serverGone), (2013, .serverLost)]

def ofNumber? (n : Int) : Option Symptom := (numbers.find? fun p => p.1 == n).map (·.2)

/-- Whether a symptom may go away by itself. -/
def isTransient : Symptom → Bool
  | .refused | .reset | .timedOut | .brokenPipe | .poolTimeout | .connectionLost | .socketFailed
  | .hostUnreachable | .serverGone | .serverLost | .lockTimeout | .deadlock => true
  | _ => false

def ofSystem? (f : Failure) : Option Symptom :=
  match f.kind with
  | .system .refused => some .refused
  | .system .reset => some .reset
  | .system .brokenPipe => some .brokenPipe
  | .system .timedOut => some .timedOut
  | _ => none

def mentions (part : String) (message : String) : Bool :=
  Split.occursIn part.toList (LetterCase.lower message.toList)

def ofMessage? (message : String) : Option Symptom :=
  if mentions "timeout" message || mentions "timed out" message then some .timedOut
  else if mentions "connection lost" message || mentions "lost connection" message then
    some .connectionLost
  else none

/-- Whether a failed statement left its connection unusable. -/
def isInvalidated (f : Failure) : Bool :=
  match f.kind with
  | .statement _ _ invalidated => invalidated
  | _ => false

/-- The meaning of a failure whose driver gave no number. Its text is asked for last. -/
def ofUnnumbered? (f : Failure) : Except Failure (Option Symptom) :=
  match f.unwrapped.chain.findSome? ofSystem? with
  | some s => .ok (some s)
  | none =>
    if isInvalidated f then .ok (some .connectionLost) else f.unwrapped.text.map ofMessage?

def ofFailure? (f : Failure) : Except Failure (Option Symptom) :=
  match f.kind with
  | .poolTimeout => .ok (some .poolTimeout)
  | _ =>
    match f.unwrapped.number? with
    | some n => .ok (ofNumber? n)
    | none => ofUnnumbered? f

end Symptom

def Failure.isRetryable (f : Failure) : Except Failure Bool :=
  match f.fault? with
  | some g => .ok g.retryable
  | none => (Symptom.ofFailure? f).map fun s => (s.map Symptom.isTransient).getD false

end QueryGateway
