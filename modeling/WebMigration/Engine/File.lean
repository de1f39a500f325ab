import WebMigration.Diff.Unified
import WebMigration.Engine.Pass
import WebMigration.Lane.Route
import WebMigration.Module.Surface
import WebMigration.Result.Basic
import WebMigration.Validation.Outcome

/-!
# Transforming one file

Both passes, the checks, the score and the notes of one file.  Whatever fails on the way, the answer
is a result: that of a failed file keeps the original.
-/

namespace WebMigration.Engine

open Rewrite (PassResult)

variable {σ : Type}

/-! ## Notes -/

/-- The note about a pass and its warnings. -/
def passNote (pass : String) (warnings : Nat) : String :=
  pass ++ " transformations applied with " ++ toString warnings ++ " warnings"

/-- A note, if it applies. -/
def noteIf (applies : Bool) (text : String) : List String := if applies then [text] else []

/-- The names that are in one list and not in another. -/
def namesOnlyIn (names others : List String) : List String := names.filter fun n => !others.contains n

/-- The change of the file structure that a moved file is. -/
def moved (path newPath : String) : Option ChangeSummary :=
  if path == newPath then none
  else
    let marked := "/" ++ path
    let isRoute := Text.contains "/pages/" marked || Text.contains "/app/" marked
    some ⟨.move, path, isRoute, if isRoute then some (Lane.routeSegment path) else none⟩

/-- What a file was and what the passes made of it. -/
structure Rewriting where
  original : String
  code : String
  path : String
  newPath : String
  passed : Passed
  /-- The context after the passes. -/
  context : FileContext

namespace Rewriting

/-- The packages that only the new code imports. -/
def added (r : Rewriting) : List String :=
  namesOnlyIn (Module.scannedPackages r.code) (Module.scannedPackages r.original)

/-- The packages that only the original imports. -/
def removed (r : Rewriting) : List String :=
  namesOnlyIn (Module.scannedPackages r.original) (Module.scannedPackages r.code)

/-- The difference of the original and the new code. -/
def diff (r : Rewriting) : String := Diff.unified r.original r.code

/-- What there is to say about a file. -/
def notes (r : Rewriting) (spec : Specification) : List String :=
  let errors := r.passed.rewritten.errors.length
  let warnings := r.passed.semantic.result.warnings.length
  (if errors == 0 then ["AST transformations applied successfully"] else [passNote "AST" errors]) ++
    noteIf (warnings != 0) (passNote "AI" warnings) ++
    noteIf (r.path != r.newPath) ("File relocated from " ++ r.path ++ " to " ++ r.newPath) ++
    noteIf (!r.added.isEmpty) ("Added " ++ toString r.added.length ++ " new dependencies") ++
    noteIf (!r.removed.isEmpty) ("Removed " ++ toString r.removed.length ++ " old dependencies") ++
    noteIf (spec.source.framework != spec.target.framework)
      ("Migrated from " ++ spec.source.framework ++ " to " ++ spec.target.framework)

/-- The lines of the audit trail: changes of imports first, then other rewrites. -/
def transformations (r : Rewriting) : List String :=
  Rewrite.importChanges r.context ++ r.context.relatedFiles

/-- What is told about a file besides its code. -/
def metadata (r : Rewriting) (spec : Specification) (confidence : Int) (review : Bool) :
    ResultMetadata :=
  let counts := Diff.counts r.diff
  { filesModified := if r.code == r.original then 0 else 1
    linesAdded := counts.1, linesRemoved := counts.2
    confidence, risk := Scoring.risk confidence, needsReview := review
    transformations := r.transformations, notes := r.notes spec
    newPath := r.newPath, role := r.context.role, language := spec.target.language
    framework := spec.target.framework, dependenciesAdded := r.added
    dependenciesRemoved := r.removed, structureChange := moved r.path r.newPath }

end Rewriting

/-! ## Scores -/

/-- The confidence in a file. -/
def confidenceIn (settings : ScoringSettings) (passed : Passed) (o : ValidationOutcome) :
    Except Fault Int :=
  if passed.semantic.failed then .ok settings.failedConfidence
  else
    Scoring.confidence o.score o.valid passed.semantic.result.confidence
      passed.rewritten.errors.length

/-- Whether someone has to look at a file. -/
def needsReview (settings : ScoringSettings) (passed : Passed) (o : ValidationOutcome)
    (confidence : Int) : Bool :=
  passed.semantic.failed ||
    Scoring.needsReview confidence o.valid passed.semantic.result.review o.violations
      settings.reviewThreshold

/-! ## Files -/

/-- The name of the kind of a value that is no text. -/
def valueKind : Json → String
  | .bool _ => "bool"
  | .int _ => "int"
  | .float _ => "float"
  | .list _ => "list"
  | .record _ => "dict"
  | .null => "NoneType"
  | _ => "str"

/-- The error of checking code that is no text. -/
def notText (isScript : Bool) (v : Json) : Fault :=
  if isScript then .of .missingMember ("'" ++ valueKind v ++ "' object has no attribute 'encode'")
  else .of .type ("expected string or bytes-like object, got '" ++ valueKind v ++ "'")

/-- Code that must be a text. -/
def codeOf (isScript : Bool) (v : Json) : Except Fault String :=
  match v with
  | .string s => .ok s
  | v => .error (notText isScript v)

/-- Where a file goes: as planned, or by rule. -/
def targetOf (path : String) (planned : Option String) (spec : Specification) : String :=
  match planned with
  | some p => if p.isEmpty then Structure.placed path spec else p
  | none => Structure.placed path spec

/-- What the rules find in a rewritten file; they are for scripts only. -/
def verdictOn (e : Engine σ) (rules : RuleSet) (r : Validation.Rewritten) (isScript : Bool) :
    Run σ (Option RuleVerdict) :=
  if isScript then do
    let verdict ← e.judge rules r.code r.targetPath
    some <$> Run.demand noVerdict verdict
  else pure none

/-- The checks of a rewritten file. -/
def validate (e : Engine σ) (rules : RuleSet) (spec : Specification) (r : Validation.Rewritten)
    (isScript : Bool) : Run σ ValidationOutcome := do
  let verdict ← e.verdictOn rules r isScript
  return @Validation.outcome e.settings.equivalence e.lanes spec e.salvage r verdict

/-- A job that files are transformed for. -/
structure Job where
  spec : Specification
  rules : RuleSet
  id : Option String := none

/-- The result of a rewriting that has been checked and scored. -/
def Rewriting.result (r : Rewriting) (settings : ScoringSettings) (spec : Specification)
    (o : ValidationOutcome) (confidence : Int) : FileResult where
  code := r.code
  original := r.original
  path := r.path
  newPath := r.newPath
  diff := r.diff
  metadata := r.metadata spec confidence (needsReview settings r.passed o confidence)
  warnings := r.passed.rewritten.errors ++ r.passed.semantic.result.warnings ++ o.warnings

/-- Checks and scores what both passes made of a file. -/
def conclude (e : Engine σ) (job : Job) (r : Rewriting) : Run σ FileResult := do
  let o ← e.validate job.rules job.spec ⟨r.original, r.code, r.path, some r.newPath⟩
    (Structure.isScript r.path)
  let confidence ← Run.ofExcept (confidenceIn e.settings.scoring r.passed o)
  let result := r.result e.settings.scoring job.spec o confidence
  Run.event "transformation:complete"
    [("file_path", .string r.path), ("confidence", .int confidence),
      ("requires_review", .bool result.needsReview),
      ("warning_count", .ofNat result.warnings.length)]
  return result

/-- Runs both passes over a file, from the context that its content gives. -/
def passesOver (e : Engine σ) (job : Job) (path original : String) : Run σ (Passed × FileContext) :=
  Work.begin (Module.contextOf path original (some job.spec.source.language)) do
    let work ← Run.state
    e.runPasses original job.spec job.id work.context

/-- Transforms a file with some content, which must be a text. -/
def transformContent (e : Engine σ) (job : Job) (path : String) (content planned : Option String) :
    Run σ FileResult := do
  Run.event "transformation:start"
    [("file_path", .string path), ("source_framework", .string job.spec.source.framework),
      ("target_framework", .string job.spec.target.framework)]
  let original ← Run.ofExcept (codeOf (Module.hasGrammar path) (.optional content))
  let (passed, context) ← e.passesOver job path original
  let code ← Run.ofExcept (codeOf (Structure.isScript path) passed.semantic.result.code)
  e.conclude job ⟨original, code, path, targetOf path planned job.spec, passed, context⟩

/-- Reports an error, and what a caller is told about it. -/
def reported (fault : Fault) : Run σ FailureReport := do
  Run.write fault.reportLine
  return fault.report

/-- The result of a file that failed. -/
def giveUp (job : Job) (path : String) (original : Option String) (fault : Fault) :
    Run σ FileResult := do
  Run.write (Event.line .error "transformation:failed"
    [("file_path", .string path), ("error", .string fault.message)])
  let report ← reported fault
  return .failed path original job.spec ("Transformation failed: " ++ report.message)
    ("Critical error: " ++ report.message)

/-- Transforms a file for a job. -/
def transformFor (e : Engine σ) (job : Job) (file : FileRecord) (planned : Option String) :
    Run σ FileResult := do
  match ← Run.attempt (e.contentOf file) with
  | .error fault => giveUp job file.path (some (file.content.getD "")) fault
  | .ok content =>
      match ← Run.attempt (e.transformContent job file.path content planned) with
      | .error fault => giveUp job file.path content fault
      | .ok result => return result

/-- The job for a specification. -/
def jobOf (e : Engine σ) (spec : Specification) (id : Option String) : Job :=
  ⟨spec, .ofSpec e.lanes spec, id⟩

/-- Transforms a file. -/
def transform (e : Engine σ) (file : FileRecord) (spec : Specification)
    (planned id : Option String) : Run σ FileResult :=
  e.transformFor (e.jobOf spec id) file planned

end WebMigration.Engine
