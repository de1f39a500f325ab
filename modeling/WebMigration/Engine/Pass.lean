import WebMigration.Engine.Basic
import WebMigration.Structure.Placement

/-!
# The passes over a file

The syntax pass and the semantic pass, each followed by an attempt to recover when it fails.  A pass
that cannot be recovered leaves the code as it is and a warning behind.
-/

namespace WebMigration.Engine

open Rewrite (PassResult)

variable {σ : Type}

/-- Where a pass over a file failed. -/
def passContext (operation : String) (jobId : Option String) (spec : Specification)
    (context : FileContext) : Recovery.Context where
  operation := operation
  jobId := jobId
  filePath := some context.path
  metadata := [("spec_version", .string spec.metadata.version)]

/-- Reports that a pass failed. -/
def reportFailure (pass path : String) (fault : Fault) : Run (Work σ) Unit :=
  Run.warning ("transformation:" ++ pass ++ ":error")
    [("file_path", .string path), ("error", .string fault.message)]

/-- Reports that a pass was recovered. -/
def reportRecovery {α : Type} (pass path : String) (o : Recovery.Outcome α) : Run (Work σ) Unit :=
  Run.event ("transformation:" ++ pass ++ ":recovered")
    [("file_path", .string path), ("strategy", .string o.strategy), ("attempts", .ofNat o.attempts)]

/-- The result of a recovery, if it has one. -/
def recovered? {α : Type} (o : Recovery.Outcome (Option α)) : Option α :=
  if o.success then o.data.join else none

/-! ## The syntax pass -/

/-- A failure of the syntax pass as a failure of the migration. -/
def rewriteFailure (path : String) : Fault → Failure
  | .failure f => f
  | fault => .transformation ("AST transformation failed: " ++ fault.message) (some path) none none []

/-- What is said about a syntax pass that has no result. -/
def rewriteComplaint (accepted : Bool) (failure : Failure) : String :=
  (if accepted then "AST transformation skipped: "
    else "AST transformation failed and recovery unsuccessful: ") ++ failure.message

/-- Rewrites a file, and tries to recover when that fails. -/
def runRewrite (e : Engine σ) (code : String) (spec : Specification) (jobId : Option String)
    (context : FileContext) : Run (Work σ) (Option PassResult) := do
  match ← Run.attempt (e.rewrite code spec) with
  | .ok result => return result
  | .error fault =>
      let failure := rewriteFailure context.path fault
      reportFailure "ast" context.path fault
      let outcome ← e.rewriteRecovery.recover (.failure failure)
        (passContext "ast-transform" jobId spec context) (e.rewrite code spec)
      match recovered? outcome with
      | some result =>
          reportRecovery "ast" context.path outcome
          return some result
      | none => return some ⟨code, [rewriteComplaint outcome.success failure]⟩

/-! ## The semantic pass -/

/-- The names of methods whose uses ask for the semantic pass. -/
def lifecycleNames : List String := ["componentDidMount", "componentWillUnmount", "componentDidUpdate"]

/-- Whether a file describes a package. -/
def isManifest (path : String) : Bool := Text.endsWith "package.json" path

/-- Whether a file is one that the semantic pass should see. -/
def needsSemantic (code : String) (context : FileContext) : Bool :=
  isManifest context.path || context.role == "component" || context.role == "page" ||
    lifecycleNames.any fun name => Text.contains name code

/-- What the semantic pass came to, and whether it failed for good. -/
structure SemanticOutcome where
  result : SemanticResult
  failed : Bool := false

/-- The warning when there is no semantic pass. -/
def unavailableWarning : String := "AI transformations skipped: No semantic transformer configured"

/-- The outcome without a semantic pass. -/
def semanticSkipped (settings : ScoringSettings) (code : String) (warnings : List String) :
    SemanticOutcome :=
  ⟨⟨.string code, settings.skippedConfidence, warnings, false⟩, false⟩

/-- The outcome when the semantic pass fails for good. -/
def semanticFailed (settings : ScoringSettings) (code : String) (fault : Fault) : SemanticOutcome :=
  ⟨⟨.string code, settings.failedConfidence,
    ["AI transformation failed: " ++ fault.message ++ ". Using AST-only result."], true⟩, true⟩

/-- Finishes a file by a model, and tries to recover when that fails. -/
def askTransformer (e : Engine σ) (t : Semantic.Transformer σ) (code : String)
    (spec : Specification) (jobId : Option String) (context : FileContext) :
    Run (Work σ) (Option SemanticOutcome) := do
  let operation : Run (Work σ) (Option SemanticResult) :=
    Work.elsewhere (t.transform code spec context)
  match ← Run.attempt operation with
  | .ok result => return result.map fun r => ⟨r, false⟩
  | .error fault =>
      reportFailure "semantic" context.path fault
      let outcome ← e.semanticRecovery.recover fault
        (passContext "semantic-transform" jobId spec context) operation
      match recovered? outcome with
      | some result =>
          reportRecovery "semantic" context.path outcome
          return some ⟨result, false⟩
      | none => return some (semanticFailed e.settings.scoring code fault)

/-- The transformer that can be used now, if there is one. -/
def transformer? (e : Engine σ) : Run σ (Option (Semantic.Transformer σ)) :=
  match e.semantic with
  | none => return none
  | some t => return if ← t.isReady then some t else none

/-- Runs the semantic pass for a file that should see it. -/
def runSemantic (e : Engine σ) (code : String) (spec : Specification) (jobId : Option String)
    (context : FileContext) : Run (Work σ) (Option SemanticOutcome) := do
  match ← Work.elsewhere e.transformer? with
  | none => return some (semanticSkipped e.settings.scoring code [unavailableWarning])
  | some t =>
      if (Structure.isScript context.path || isManifest context.path) && needsSemantic code context then
        askTransformer e t code spec jobId context
      else return some (semanticSkipped e.settings.scoring code [])

/-! ## Both passes -/

/-- What both passes came to. -/
structure Passed where
  rewritten : PassResult
  semantic : SemanticOutcome

/-- The error of using the code of a result that is not there. -/
def noResult : Fault := .of .missingMember "'NoneType' object has no attribute 'code'"

/-- The error of using a verdict that is not there. -/
def noVerdict : Fault := .of .missingMember "'NoneType' object has no attribute 'valid'"

/-- Runs the syntax pass over a file; it only rewrites scripts. -/
def rewriteScript (e : Engine σ) (code : String) (spec : Specification) (jobId : Option String)
    (context : FileContext) : Run (Work σ) PassResult :=
  if Structure.isScript context.path then do
    let result ← e.runRewrite code spec jobId context
    Run.demand noResult result
  else pure ⟨code, []⟩

/-- Runs both passes over a file. -/
def runPasses (e : Engine σ) (code : String) (spec : Specification) (jobId : Option String)
    (context : FileContext) : Run (Work σ) Passed := do
  let rewritten ← e.rewriteScript code spec jobId context
  let work ← Run.state
  let result ← e.runSemantic rewritten.code spec jobId work.context
  let semantic ← Run.demand noResult result
  return ⟨rewritten, semantic⟩

end WebMigration.Engine
