import WebMigration.Failure.Basic
import WebMigration.Json.Printer

/-!
# Events

The lines that a migration logs: named events with structured data, and reports of failures.  Values
under the name of a secret never reach a line, at any depth.
-/

namespace WebMigration

/-- How important a logged line is. -/
inductive LogLevel
  | debug | info | warning | error | critical
  deriving DecidableEq, Repr

def LogLevel.name : LogLevel → String
  | debug => "DEBUG"
  | info => "INFO"
  | warning => "WARNING"
  | error => "ERROR"
  | critical => "CRITICAL"

/-- How much a level weighs: a log that is shown from a weight on leaves lighter lines out. -/
def LogLevel.weight : LogLevel → Nat
  | debug => 10
  | info => 20
  | warning => 30
  | error => 40
  | critical => 50

/-- A logged line. -/
structure LogLine where
  level : LogLevel
  text : String
  deriving DecidableEq, Repr

/-- The line with its level in front. -/
def LogLine.render (l : LogLine) : String := l.level.name ++ " " ++ l.text

namespace Event

/-- The lower-case names of fields whose values are secret. -/
def secretNames : List String :=
  ["access_token", "accesstoken", "api_key", "apikey", "token", "password", "secret"]

/-- Whether a field with this name holds a secret. -/
def isSecret (name : String) : Bool := secretNames.contains (Text.lower name)

mutual

/-- The value with every secret in it replaced. -/
def redact : Json → Json
  | .list items => .list (redactItems items)
  | .record fields => .record (redactFields fields)
  | v => v

def redactItems : List Json → List Json
  | [] => []
  | v :: rest => redact v :: redactItems rest

def redactFields : List (String × Json) → List (String × Json)
  | [] => []
  | (name, v) :: rest =>
      (name, if isSecret name then .string "[REDACTED]" else redact v) :: redactFields rest

end

/-- The line for a named event with its data. -/
def line (level : LogLevel) (name : String) (data : List (String × Json)) : LogLine :=
  ⟨level, name ++ " " ++ (redact (.record data)).sorted.compact⟩

end Event

/-- What a caller is told about an error. -/
structure FailureReport where
  message : String
  code : String
  status : Int
  recoverable : Bool
  deriving DecidableEq, Repr

namespace Fault

/-- What a caller is told about an error. -/
def report : Fault → FailureReport
  | .failure f => ⟨f.message, f.code, f.status, f.recoverable⟩
  | .foreign kind text problems =>
      ⟨(Fault.foreign kind text problems).messageOrKind, "UNKNOWN_ERROR", 500, false⟩

/-- The line that reports an error. -/
def reportLine : Fault → LogLine
  | .failure f => ⟨.error, "Migration error [" ++ f.code ++ "]: " ++ f.message⟩
  | .foreign kind text problems =>
      ⟨.error, "Unexpected migration error: " ++ (Fault.foreign kind text problems).message⟩

end Fault

end WebMigration
