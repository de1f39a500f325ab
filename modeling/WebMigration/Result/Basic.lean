import WebMigration.Json.Printer
import WebMigration.Scoring
import WebMigration.Spec.Basic
import WebMigration.Structure.Change

/-!
# Results

What becomes of one file, and of a batch of files: the new code with what was done to it, how far it
can be trusted, and whether someone has to look at it.
-/

namespace WebMigration

/-- What is told about a result besides its code. -/
structure ResultMetadata where
  filesModified : Nat := 1
  linesAdded : Nat := 0
  linesRemoved : Nat := 0
  confidence : Int := 0
  risk : Int := 100
  needsReview : Bool := true
  /-- The lines of the audit trail. -/
  transformations : List String := []
  notes : List String := []
  newPath : String := ""
  role : String := "module"
  language : String := ""
  framework : String := ""
  dependenciesAdded : List String := []
  dependenciesRemoved : List String := []
  structureChange : Option ChangeSummary := none
  deriving DecidableEq, Repr

def ResultMetadata.toJson (m : ResultMetadata) : Json :=
  .record [("files_modified", .ofNat m.filesModified), ("lines_added", .ofNat m.linesAdded),
    ("lines_removed", .ofNat m.linesRemoved), ("confidence_score", .int m.confidence),
    ("risk_score", .int m.risk), ("requires_manual_review", .bool m.needsReview),
    ("transformations_applied", .strings m.transformations), ("notes", .strings m.notes),
    ("new_file_path", .string m.newPath), ("file_type", .string m.role),
    ("language", .string m.language), ("framework", .string m.framework),
    ("dependencies_added", .strings m.dependenciesAdded),
    ("dependencies_removed", .strings m.dependenciesRemoved),
    ("structure_change", (m.structureChange.map (·.toJson)).getD .null)]

/-- What became of a file.  There is no code where there was no text to begin with. -/
structure FileResult where
  code : Option String
  original : Option String
  path : String
  newPath : String
  diff : String
  metadata : ResultMetadata
  warnings : List String := []
  success : Bool := true
  deriving DecidableEq, Repr

namespace FileResult

def confidence (r : FileResult) : Int := r.metadata.confidence

def needsReview (r : FileResult) : Bool := r.metadata.needsReview

def toJson (r : FileResult) : Json :=
  .record [("code", .optional r.code), ("original_code", .optional r.original),
    ("file_path", .string r.path), ("new_file_path", .string r.newPath), ("diff", .string r.diff),
    ("metadata", r.metadata.toJson), ("warnings", .strings r.warnings),
    ("success", .bool r.success), ("confidence", .int r.confidence),
    ("requires_review", .bool r.needsReview)]

/-- What counts of a result in statistics. -/
def outcome (r : FileResult) : Scoring.Outcome :=
  ⟨r.confidence, r.needsReview, r.warnings.length⟩

/-- The result of a file that could not be transformed: the original, which no one should trust. -/
def failed (path : String) (original : Option String) (spec : Specification)
    (note warning : String) : FileResult where
  code := original
  original := original
  path := path
  newPath := path
  diff := ""
  metadata :=
    { filesModified := 0, notes := [note], newPath := path, language := spec.source.language
      framework := spec.source.framework }
  warnings := [warning]
  success := false

/-- The result of a file that was written and not rewritten. -/
def generated (path : String) (code original : Option String) (role language : String)
    (spec : Specification) (notes : List String) (dependenciesAdded : List String := [])
    (structureChange : Option ChangeSummary := none) : FileResult where
  code := code
  original := original
  path := path
  newPath := path
  diff := ""
  metadata :=
    { confidence := 100, risk := 0, needsReview := false, notes, newPath := path, role, language
      framework := spec.target.framework, dependenciesAdded, structureChange }

end FileResult

/-- The results of a batch by their paths. -/
structure BatchResult where
  results : Table FileResult
  statistics : Scoring.Statistics

namespace BatchResult

/-- The results with their statistics. -/
def ofResults (results : Table FileResult) : BatchResult :=
  ⟨results, Scoring.statistics (results.map fun r => r.2.outcome)⟩

def toJson (b : BatchResult) : Json :=
  .record [("statistics", b.statistics.toJson),
    ("results", .record (b.results.map fun r => (r.1, r.2.toJson)))]

end BatchResult

end WebMigration
