import WebMigration.Json.Value

/-!
# Failures

Everything that can go wrong in a migration.  A `Failure` is a cause that the migration itself knows;
from it follow its code, its status and whether trying again may help.  A `Fault` is whatever a
collaborator may throw: a failure, or some other error of which only the kind and the text are known.
-/

namespace WebMigration

/-- A step on the way to a value inside a document: a field name or a position in a list. -/
inductive PathStep
  | field (name : String)
  | index (position : Nat)
  deriving DecidableEq, Repr

/-- What is wrong with one value of a document. -/
inductive ProblemKind
  | missing | notText | notModel | notMapping | notList | notBoolean | unreadableBoolean
  | unreadableInteger | notInteger | fractionalInteger | nonFiniteNumber | unreadableNumber
  | notNumber | tooSmall | tooLarge
  deriving DecidableEq, Repr

/-- A value of a document that is not as it must be. -/
structure Problem where
  path : List PathStep
  kind : ProblemKind
  deriving DecidableEq, Repr

/-- The step of a backup during which it failed. -/
inductive BackupStep
  | create | restore | cleanup
  /-- A step named by someone else. -/
  | other (name : String)
  deriving DecidableEq, Repr

/-- The name of a backup step. -/
def BackupStep.name : BackupStep → String
  | create => "create"
  | restore => "restore"
  | cleanup => "cleanup"
  | other name => name

/-- A cause of failure. -/
inductive Failure
  /-- A failure with a code, a status and a recoverability of its own. -/
  | general (message code : String) (recoverable : Bool) (status : Int)
  /-- A transformation step failed for a file. -/
  | transformation (message : String) (filePath : Option String) (line column : Option Int)
      (suggestions : List String)
  /-- Input is not as it must be. -/
  | validation (message : String) (field : Option String) (problems : List Problem)
  /-- The set of migration rules is malformed. -/
  | ruleSet (message : String)
  /-- A call to the host of a repository failed. -/
  | hosting (message : String) (status : Int) (remaining reset : Option Int)
  /-- The service behind the semantic pass failed. -/
  | aiService (message provider : String) (retryable : Bool)
  /-- Source text could not be parsed. -/
  | parsing (message : String) (filePath : Option String) (line : Option Int)
  /-- The steps of a job could not be put in order. -/
  | orchestration (message : String) (phase : Option String)
  /-- A backup could not be made, used or removed. -/
  | backup (message : String) (step : BackupStep)
  /-- A transaction was used out of order. -/
  | transaction (message : String)
  deriving DecidableEq, Repr

namespace Failure

def message : Failure → String
  | general m .. => m
  | transformation m .. => m
  | validation m .. => m
  | ruleSet m => m
  | hosting m .. => m
  | aiService m .. => m
  | parsing m .. => m
  | orchestration m _ => m
  | backup m _ => m
  | transaction m => m

/-- Whether the host refused a call because its quota is used up. -/
def isRateLimited (status : Int) (remaining : Option Int) : Bool :=
  status == 403 && remaining == some 0

/-- The code by which recovery tells failures apart. -/
def code : Failure → String
  | general _ code .. => code
  | transformation .. => "TRANSFORMATION_ERROR"
  | validation .. => "VALIDATION_ERROR"
  | ruleSet _ => "INVALID_RULES"
  | hosting _ status remaining _ =>
      if isRateLimited status remaining then "RATE_LIMIT_EXCEEDED" else "GITHUB_API_ERROR"
  | aiService .. => "AI_SERVICE_ERROR"
  | parsing .. => "PARSE_ERROR"
  | orchestration .. => "ORCHESTRATION_ERROR"
  | backup .. => "BACKUP_ERROR"
  | transaction _ => "TRANSACTION_ERROR"

/-- Whether trying again may help. -/
def recoverable : Failure → Bool
  | general _ _ recoverable _ => recoverable
  | transformation .. => true
  | validation .. => true
  | hosting _ status remaining _ =>
      status ≥ 500 || status == 429 || isRateLimited status remaining
  | aiService _ _ retryable => retryable
  | _ => false

/-- The status that a web answer would carry. -/
def status : Failure → Int
  | general _ _ _ status => status
  | validation .. => 400
  | ruleSet _ => 400
  | hosting _ status .. => status
  | aiService .. => 503
  | parsing .. => 400
  | _ => 500

end Failure

/-- The kinds of error that are not failures of the migration. -/
inductive FaultKind
  | value | runtime | key | connection | unknown | type | missingMember | decoding | overflow
  | imprecise | unreadableDocument | settings | fileExists | fileMissing | notADirectory
  | isADirectory | system
  deriving DecidableEq, Repr

/-- Anything that may be thrown. -/
inductive Fault
  | failure (cause : Failure)
  /-- An error that the migration does not know, with its text and, for rejected settings, the
  problems found. -/
  | foreign (kind : FaultKind) (text : String) (problems : List Problem)
  deriving DecidableEq, Repr

namespace Fault

/-- An error of a kind with a text. -/
def of (kind : FaultKind) (text : String) : Fault := foreign kind text []

/-- An error about a value. -/
def value (text : String) : Fault := of .value text

/-- The text of an error; a missing key, if it is known, is shown in quotes. -/
def message : Fault → String
  | failure f => f.message
  | foreign .key text _ => if text.isEmpty then "" else Text.quoted text
  | foreign _ text _ => text

/-- The name of a kind of error, which stands in for a text that is missing. -/
def kindName : FaultKind → String
  | .value => "ValueError"
  | .runtime => "RuntimeError"
  | .key => "KeyError"
  | .connection => "ConnectionError"
  | .unknown => "Exception"
  | .type => "TypeError"
  | .missingMember => "AttributeError"
  | .decoding => "UnicodeDecodeError"
  | .overflow => "OverflowError"
  | .imprecise => "InvalidOperation"
  | .unreadableDocument => "YAMLError"
  | .settings => "ValidationError"
  | .fileExists => "FileExistsError"
  | .fileMissing => "FileNotFoundError"
  | .notADirectory => "NotADirectoryError"
  | .isADirectory => "IsADirectoryError"
  | .system => "OSError"

/-- The kinds of error that come from the system below, from its files or its connections. -/
def systemKinds : List FaultKind :=
  [.fileExists, .fileMissing, .notADirectory, .isADirectory, .system, .connection]

/-- Whether an error comes from the system below. -/
def isSystem : Fault → Bool
  | foreign kind _ _ => systemKinds.contains kind
  | failure _ => false

/-- The text of an error, or the name of its kind when it has none. -/
def messageOrKind : Fault → String
  | failure f => f.message
  | foreign kind text problems =>
      let m := (foreign kind text problems).message
      if m.isEmpty then kindName kind else m

/-- An error as a failure of the migration; an unknown one cannot be recovered from. -/
def toFailure : Fault → Failure
  | failure f => f
  | foreign kind text problems =>
      .general (foreign kind text problems).messageOrKind "UNKNOWN_ERROR" false 500

/-- Whether trying again cannot help. -/
def isFatal : Fault → Bool
  | failure f => !f.recoverable
  | foreign .. => false

end Fault

end WebMigration
