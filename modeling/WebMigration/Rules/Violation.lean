import WebMigration.Json.Access

/-!
# Violations

What the rules of a specification find wrong with a file, and the summary of a list of findings.
-/

namespace WebMigration

/-- A finding about a file. -/
structure Violation where
  id : String
  /-- The kind of finding. -/
  kind : String
  /-- How serious the finding is; only errors make a file invalid. -/
  severity : String
  line : Int
  column : Int
  message : String
  suggestion : String := ""
  autoFixable : Bool := false
  filePath : Option String := none
  deriving DecidableEq, Repr

namespace Violation

def isError (v : Violation) : Bool := v.severity == "error"

/-- Two findings with one key are reported once. -/
def key (v : Violation) : Int × Int × String := (v.line, v.column, v.id)

/-- The findings whose keys do not occur before. -/
def distinctFrom (seen : List (Int × Int × String)) : List Violation → List Violation
  | [] => []
  | v :: rest =>
      if seen.contains v.key then distinctFrom seen rest else v :: distinctFrom (v.key :: seen) rest

/-- The first finding of each key. -/
def distinct (vs : List Violation) : List Violation := distinctFrom [] vs

def toJson (v : Violation) : Json :=
  .record [("id", .string v.id), ("type", .string v.kind), ("severity", .string v.severity),
    ("line", .int v.line), ("column", .int v.column), ("message", .string v.message),
    ("suggestion", .string v.suggestion), ("auto_fixable", .bool v.autoFixable),
    ("file_path", .optional v.filePath)]

def ofJson (v : Json) : Violation :=
  { id := v.text "id", kind := v.text "type", severity := v.text "severity", line := v.integer "line",
    column := v.integer "column", message := v.text "message", suggestion := v.text "suggestion",
    autoFixable := v.flag "auto_fixable", filePath := v.text? "file_path" }

/-- How often each name occurs, in the order of first occurrence. -/
def tally (names : List String) : List (String × Json) :=
  names.foldl (fun counts name =>
    let n := match Json.lookup? counts name with
      | some (.int n) => n
      | _ => 0
    Json.put counts name (.int (n + 1))) []

/-- The file of a finding as a report names it. -/
def reportedFile (v : Violation) : String :=
  match v.filePath with
  | some path => if path.isEmpty then "unknown" else path
  | none => "unknown"

/-- The summary of some findings. -/
def report (vs : List Violation) : Json :=
  .record [("total", .ofNat vs.length), ("errors", .ofNat (vs.countP (·.isError))),
    ("warnings", .ofNat (vs.countP (·.severity == "warning"))),
    ("by_file", .record (tally (vs.map reportedFile))),
    ("by_type", .record (tally (vs.map (·.kind)))),
    ("auto_fixable", .ofNat (vs.countP (·.autoFixable))),
    ("manual_review", .ofNat (vs.countP fun v => !v.autoFixable))]

end Violation

end WebMigration
