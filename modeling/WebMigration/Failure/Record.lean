import WebMigration.Failure.Basic
import WebMigration.Json.Access

/-!
# Failures as records

How failures, problems of documents and other errors are told to a caller as structured values, and
how an error is read from such a value.
-/

namespace WebMigration

/-! ## Problems -/

def PathStep.toJson : PathStep → Json
  | field name => .string name
  | index position => .ofNat position

/-- The code of a kind of problem. -/
def ProblemKind.code : ProblemKind → String
  | missing => "missing"
  | notText => "string_type"
  | notModel => "model_type"
  | notMapping => "dict_type"
  | notList => "list_type"
  | notBoolean => "bool_type"
  | unreadableBoolean => "bool_parsing"
  | unreadableInteger => "int_parsing"
  | notInteger => "int_type"
  | fractionalInteger => "int_from_float"
  | nonFiniteNumber => "finite_number"
  | unreadableNumber => "float_parsing"
  | notNumber => "float_type"
  | tooSmall => "greater_than_equal"
  | tooLarge => "less_than_equal"

def Problem.toJson (p : Problem) : Json :=
  .record [("loc", .list (p.path.map (·.toJson))), ("type", .string p.kind.code)]

/-! ## Failures -/

namespace Failure

/-- The name of a kind of failure. -/
def kind : Failure → String
  | general .. => "MigrationError"
  | transformation .. => "TransformationError"
  | validation .. => "ValidationError"
  | ruleSet _ => "RuleSetError"
  | hosting .. => "GitHubAPIError"
  | aiService .. => "AIServiceError"
  | parsing .. => "ParseError"
  | orchestration .. => "OrchestrationError"
  | backup .. => "BackupError"
  | transaction _ => "TransactionError"

/-- What all failures tell. -/
def summary (f : Failure) : List (String × Json) :=
  [("message", .string f.message), ("code", .string f.code), ("recoverable", .bool f.recoverable),
    ("status_code", .int f.status)]

/-- A number, or null. -/
def number : Option Int → Json
  | some n => .int n
  | none => .null

/-- What a failure of one kind tells in addition. -/
def particulars : Failure → List (String × Json)
  | transformation _ path line column suggestions =>
      [("file_path", .optional path), ("line", number line), ("column", number column),
        ("suggestions", .strings suggestions)]
  | validation _ field _ => [("field", .optional field)]
  | hosting _ _ remaining reset =>
      [("rate_limit_remaining", number remaining), ("rate_limit_reset", number reset)]
  | aiService _ provider _ => [("provider", .string provider)]
  | parsing _ path line => [("file_path", .optional path), ("line", number line)]
  | orchestration _ phase => [("phase", .optional phase)]
  | backup _ step => [("operation", .string step.name)]
  | _ => []

/-- All that a failure tells. -/
def attributes (f : Failure) : Json := .record (f.summary ++ f.particulars)

/-- What a caller must know of one kind of failure. -/
def details : Failure → List (String × Json)
  | validation _ _ (p :: ps) => [("details", .list ((p :: ps).map (·.toJson)))]
  | backup m step => (backup m step).particulars
  | aiService m provider retryable => (aiService m provider retryable).particulars
  | _ => []

end Failure

/-! ## Errors -/

namespace Fault

/-- The name of the kind of an error. -/
def kind : Fault → String
  | failure f => f.kind
  | foreign kind _ _ => kindName kind

/-- An error as a caller is told about it. -/
def toJson : Fault → Json
  | failure f => .record (("error", .string f.kind) :: f.summary ++ f.details)
  | foreign .settings _ problems =>
      .record [("error", .string "SettingsValidationError"),
        ("details", .list (problems.map (·.toJson)))]
  | foreign kind text problems =>
      .record (("error", .string (kindName kind)) ::
        (if kind == .value || kind == .runtime then
          [("message", .string (foreign kind text problems).message)] else []))

/-- The error with a name and the fields of a record. -/
def ofJson (v : Json) : Fault :=
  let m := v.text "message"
  match v.text "type" with
  | "MigrationError" => .failure (.general m (v.text "code" "MIGRATION_ERROR") (v.flag "recoverable")
      (v.integer "status_code" 500))
  | "TransformationError" => .failure (.transformation m (v.text? "file_path") (v.integer? "line")
      (v.integer? "column") (v.texts "suggestions"))
  | "ValidationError" => .failure (.validation m (v.text? "field") [])
  | "RuleSetError" => .failure (.ruleSet m)
  | "GitHubAPIError" => .failure (.hosting m (v.integer "status_code" 500)
      (v.integer? "rate_limit_remaining") (v.integer? "rate_limit_reset"))
  | "AIServiceError" => .failure (.aiService m (v.text "provider" "unknown") (v.flag "retryable" true))
  | "ParseError" => .failure (.parsing m (v.text? "file_path") (v.integer? "line"))
  | "OrchestrationError" => .failure (.orchestration m (v.text? "phase"))
  | "BackupError" => .failure (.backup m (.other (v.text "operation")))
  | "TransactionError" => .failure (.transaction m)
  | "ValueError" => .of .value m
  | "RuntimeError" => .of .runtime m
  | "KeyError" => .of .key m
  | "ConnectionError" => .of .connection m
  | _ => .of .unknown m

/-- The result of a computation, or the error that ended it. -/
def outcome (r : Except Fault Json) : Json :=
  match r with
  | .ok v => .record [("result", v)]
  | .error f => f.toJson

end Fault

end WebMigration
