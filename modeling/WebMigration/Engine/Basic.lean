import WebMigration.Failure.Run
import WebMigration.Lane.AppRouter
import WebMigration.Progress.Event
import WebMigration.Recovery.Manager
import WebMigration.Rewrite.Pass
import WebMigration.Rules.Validation
import WebMigration.Semantic.Transformer
import WebMigration.Structure.Plan

/-!
# The engine

The collaborators that a migration works with.  Each of them may fail, and the passes may come back
without a result; the engine decides what that means for a file.
-/

namespace WebMigration

/-- A file that is to be migrated; without content it has to be fetched. -/
structure FileRecord where
  path : String
  content : Option String := none
  deriving DecidableEq, Repr

/-- What a pass over a file works on: the context of the file and the state of everyone else. -/
structure Work (σ : Type) where
  context : FileContext
  outside : σ

/-- The contents of the files of a batch.  A file may be fetched without there being a text. -/
abbrev Engine.Contents := Table (Option String)

/-- The collaborators of a migration.  An answer `none` stands for one that is of no use. -/
structure Engine (σ : Type) where
  settings : Settings := {}
  lanes : LaneRegistry := .builtIn
  /-- What the checks know of texts that do not parse. -/
  [salvage : Module.Salvage]
  /-- Rewrites a file by its syntax tree. -/
  rewrite : String → Specification → Run (Work σ) (Option Rewrite.PassResult)
  /-- Finishes a file by a model. -/
  semantic : Option (Semantic.Transformer σ) := none
  /-- Says what the rules find in a file at a path. -/
  judge : RuleSet → String → String → Run σ (Option RuleVerdict)
  /-- Plans the file structure of a repository. -/
  plan : Engine.Contents → Specification → Run σ (List FileChange)
  /-- Gets the content of a file. -/
  fetch : Option (String → Run σ (Option String)) := none
  /-- Recovers from failures of the rewriting. -/
  rewriteRecovery : Recovery.Manager (Work σ) (Option Rewrite.PassResult) :=
    .standard (.ofSettings settings.recovery)
  /-- Recovers from failures of the semantic pass. -/
  semanticRecovery : Recovery.Manager (Work σ) (Option SemanticResult) :=
    .standard (.ofSettings settings.recovery)
  /-- Is told how a batch proceeds. -/
  observer : Option (Progress.Report → Run σ Unit) := none
  /-- Gets the events of a job. -/
  sink : Option (String → Progress.Message → Run σ Unit) := none
  /-- Reads the time in microseconds. -/
  clock : Run σ Int := pure 0

namespace Work

variable {σ α : Type}

/-- Works on a file from a context on, and answers with the context at the end. -/
def begin (context : FileContext) (r : Run (Work σ) α) : Run σ (α × FileContext) := fun s =>
  match r ⟨⟨context, s.state⟩, s.log⟩ with
  | (.ok a, t) => (.ok (a, t.state.context), ⟨t.state.outside, t.log⟩)
  | (.error f, t) => (.error f, ⟨t.state.outside, t.log⟩)

/-- Runs what does not work on the context. -/
def elsewhere (r : Run σ α) : Run (Work σ) α :=
  Run.onPart Work.outside (fun w outside => { w with outside }) r

end Work

namespace Engine

variable {σ : Type}

/-- The syntax pass by the rules of some lanes. -/
def syntaxPass [Module.Salvage] (lanes : LaneRegistry) (code : String) (spec : Specification) :
    Run (Work σ) (Option Rewrite.PassResult) :=
  Run.onState fun w =>
    match Rewrite.pass lanes code spec w.context with
    | (result, context) => (result.map some, { w with context })

/-- The texts of files; one without a text is empty. -/
def Contents.texts (files : Contents) : Structure.Files := files.map fun f => (f.1, f.2.getD "")

/-- The engine that works by some lanes and without a model. -/
def standard [Module.Salvage] (settings : Settings) (lanes : LaneRegistry) : Engine σ where
  settings := settings
  lanes := lanes
  rewrite := syntaxPass lanes
  judge rules code path := pure (some (rules.validate code path))
  plan files spec := pure (Structure.plan lanes files.texts spec)

/-- The content of a file, which may turn out to be no text. -/
def contentOf (e : Engine σ) (file : FileRecord) : Run σ (Option String) :=
  match file.content, e.fetch with
  | some content, _ => pure (some content)
  | none, some fetch => fetch file.path
  | none, none =>
      Run.fail (.orchestration
        ("No content for " ++ file.path ++ " and no content fetcher configured") (some "fetch"))

end Engine

end WebMigration
