import WebMigration.Equivalence.Comparison
import WebMigration.Rules.Validation
import WebMigration.Scoring
import WebMigration.Structure.Placement
import WebMigration.Validation.Leftover

/-!
# Validating rewritten files

All checks of a rewritten file together.  The rules, the grammar, the structure and the imports are
checked for script files only, leftovers of the old framework for every file.  Problems are part of
the outcome and never errors.
-/

namespace WebMigration

open WebMigration.Module (Salvage Source)

/-- What the checks of a file came to. -/
structure ValidationOutcome where
  valid : Bool := true
  violations : List Violation := []
  warnings : List String := []
  syntaxValid : Bool := true
  equivalent : Bool := true
  importsResolved : Bool := true
  oldReferencesGone : Bool := true
  score : Int := 0

namespace ValidationOutcome

def toJson (o : ValidationOutcome) : Json :=
  .record [("valid", .bool o.valid), ("violations", .list (o.violations.map (·.toJson))),
    ("warnings", .strings o.warnings), ("syntax_valid", .bool o.syntaxValid),
    ("semantic_equivalence", .bool o.equivalent), ("imports_resolved", .bool o.importsResolved),
    ("old_framework_references_removed", .bool o.oldReferencesGone),
    ("confidence_score", .int o.score)]

/-- The outcome with more warnings. -/
def warn (o : ValidationOutcome) (texts : List String) : ValidationOutcome :=
  { o with warnings := o.warnings ++ texts }

/-- The number of violations that are errors. -/
def errorCount (o : ValidationOutcome) : Nat := o.violations.countP (·.isError)

/-- The checks as they count for the score. -/
def checks (o : ValidationOutcome) : Scoring.Checks where
  syntaxValid := o.syntaxValid
  equivalent := o.equivalent
  importsResolved := o.importsResolved
  oldReferencesGone := o.oldReferencesGone
  violations := o.violations.length
  errors := o.errorCount
  warnings := o.warnings.length

/-- The outcome with its score and its verdict, given whether the rules were met. -/
def finish (o : ValidationOutcome) (rulesMet : Bool) : ValidationOutcome :=
  { o with score := Scoring.validationScore o.checks
           valid := rulesMet && o.syntaxValid && o.errorCount == 0 }

end ValidationOutcome

namespace Validation

/-- A rewritten file together with what it was. -/
structure Rewritten where
  original : String
  code : String
  path : String
  newPath : Option String := none

/-- The path whose grammar the new code is read with. -/
def Rewritten.targetPath (r : Rewritten) : String :=
  match r.newPath with
  | some p => if Structure.isScript p then p else r.path
  | none => r.path

/-- The message for code that is not readable. -/
def unreadable (s : Source) : Option String :=
  s.error.map fun p => "line " ++ toString (p.line + 1) ++ ": " ++ s.firstError

/-- Records whether the new code can be read. -/
def withSyntax (readable : Bool) (o : ValidationOutcome) : ValidationOutcome :=
  if readable then o
  else { o with syntaxValid := false }.warn ["Syntax validation failed for target language"]

/-- Records whether the structure was kept. -/
def withEquivalence (e : Equivalence) (o : ValidationOutcome) : ValidationOutcome :=
  if e.equivalent then o
  else
    let reason := e.reason.getD ""
    { o with equivalent := false }.warn ["Semantic equivalence check: " ++
      if reason.isEmpty then "Control flow differs" else reason]

/-- Records the problems with imports. -/
def withImports (problems : List String) (o : ValidationOutcome) : ValidationOutcome :=
  if problems.isEmpty then o
  else { o with importsResolved := false }.warn
    ["Import resolution issues: " ++ Text.join ", " problems]

/-- Records what is left of the old framework. -/
def withLeftovers (found : List String) (o : ValidationOutcome) : ValidationOutcome :=
  if found.isEmpty then o
  else { o with oldReferencesGone := false }.warn
    ["Old framework references found: " ++ Text.join ", " found]

variable (settings : EquivalenceSettings) (lanes : LaneRegistry) (spec : Specification)

/-- The profile of the framework that files come from. -/
def sourceProfile : FrameworkProfile := lanes.profile spec.source.framework

/-- The problems with the imports of a file. -/
def fileImportProblems (s : Source) : List String :=
  match unreadable s with
  | some message => ["Import check failed: " ++ message]
  | none =>
      importProblems (sourceProfile lanes spec) (lanes.profile spec.target.framework) s.references

/-- The leftovers in a text. -/
def leftovers (code : String) : List String :=
  oldReferences (sourceProfile lanes spec) spec.rules.mustRemove code

/-- The checks of a script file beyond its rules. -/
def scriptOutcome [Salvage] (r : Rewritten) (verdict : RuleVerdict) : ValidationOutcome :=
  let parsed := Source.parse r.code r.targetPath (some spec.target.language)
  let equivalence := Equivalence.compare settings
    ⟨r.original, r.path, some spec.source.language⟩
    ⟨r.code, r.targetPath, some spec.target.language⟩
  withImports (fileImportProblems lanes spec parsed)
    (withEquivalence equivalence (withSyntax (!parsed.hasError)
      { violations := verdict.violations, warnings := verdict.warnings }))

/-- All checks of a file; a script file comes with what the rules say about it. -/
def outcome [Salvage] (r : Rewritten) (verdict : Option RuleVerdict) : ValidationOutcome :=
  let checked := match verdict with
    | some v => scriptOutcome settings lanes spec r v
    | none => {}
  (withLeftovers (leftovers lanes spec r.code) checked).finish
    ((verdict.map (·.valid)).getD true)

end Validation

end WebMigration
