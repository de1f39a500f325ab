import WebMigration.Engine.File
import WebMigration.Engine.Generated

/-!
# Transforming a repository

A batch plans the file structure once, transforms the files group by group, and adds the files that
the target needs.  Whatever becomes of single files, and of those who are told about the progress, a
batch runs to its end.
-/

namespace WebMigration.Engine

open Progress (Stage Report Message)

variable {σ : Type}

/-! ## Progress -/

/-- Hands an event to the sink of a job; a sink that fails does not matter. -/
def emit (e : Engine σ) (jobId : Option String) (message : String → Int → Message) : Run σ Unit :=
  match e.sink, jobId with
  | some sink, some id =>
      if id.isEmpty then pure ()
      else do
        let time ← e.clock
        let _ ← Run.attempt (sink id (message id time))
  | _, _ => pure ()

/-- Hands a report to the observer; an observer that fails does not matter. -/
def tellObserver (e : Engine σ) (r : Report) : Run σ Unit :=
  match e.observer with
  | some observer => do
      let _ ← Run.attempt (observer r)
  | none => pure ()

/-- Tells how far a batch has come. -/
def report (e : Engine σ) (jobId : Option String) (r : Report) : Run σ Unit := do
  e.tellObserver r
  e.emit jobId fun id time => .about "progress" id r.text time r.data

/-! ## Results -/

/-- The path under which a result is kept: its new path, or its old one if that is taken. -/
def keyOf (results : Results) (r : FileResult) : String :=
  let key := if r.newPath.isEmpty then r.path else r.newPath
  if results.has key then r.path else key

/-- The results with one more. -/
def keep (results : Results) (r : FileResult) : Results := results.put (keyOf results r) r

/-! ## Contents -/

/-- The contents of the files, and the results of those that cannot be read. -/
def collect (e : Engine σ) (spec : Specification) :
    List FileRecord → Contents → Results → Run σ (Contents × Results)
  | [], files, results => return (files, results)
  | file :: rest, files, results => do
      match ← Run.attempt (e.contentOf file) with
      | .ok content => collect e spec rest (files.put file.path content) results
      | .error fault =>
          let report ← reported fault
          collect e spec rest files (keep results (.failed file.path (some "") spec
            ("Batch transformation failed: " ++ report.message)
            ("Critical error in batch: " ++ report.message)))

/-! ## Groups -/

/-- The new path that a plan gives a file. -/
def plannedPath? (changes : List FileChange) (path : String) : Option String :=
  (changes.reverse.find? fun c =>
    c.originalPath == path && !c.originalPath.isEmpty && !c.newPath.isEmpty).map (·.newPath)

/-- The files that are transformed: all but style sheets and those that the plan deletes. -/
def queue (files : Contents) (changes : List FileChange) : Contents :=
  files.filter fun f => !Structure.isStyleSheet f.1 && !deletes changes f.1

/-- A list in groups of a size; at most `fuel` groups are made. -/
def groupsUpTo {α : Type} (size : Nat) : Nat → List α → List (List α)
  | 0, _ => []
  | fuel + 1, items =>
      if items.isEmpty then [] else items.take size :: groupsUpTo size fuel (items.drop size)

/-- A list in groups of a size, which is at least one. -/
def groups {α : Type} (size : Nat) (items : List α) : List (List α) :=
  groupsUpTo (max 1 size) items.length items

/-- Transforms the files of a group. -/
def transformGroup (e : Engine σ) (job : Job) (changes : List FileChange) :
    Contents → Run σ (List FileResult)
  | [] => return []
  | f :: rest => do
      let r ← e.transformFor job ⟨f.1, f.2⟩ (plannedPath? changes f.1)
      return r :: (← transformGroup e job changes rest)

/-- Keeps the results of a group, and tells about each of them; `done` files are done before. -/
def keepGroup (e : Engine σ) (job : Job) (total : Nat) :
    Nat → List FileResult → Results → Run σ Results
  | _, [], results => return results
  | done, r :: rest, results => do
      e.report job.id ⟨.transforming, done + 1, total, "Transformed " ++ r.path⟩
      keepGroup e job total (done + 1) rest (keep results r)

/-- Transforms groups one after the other; `done` files are done before. -/
def transformGroups (e : Engine σ) (job : Job) (changes : List FileChange) (total : Nat) :
    Nat → List Contents → Results → Run σ Results
  | _, [], results => return results
  | done, group :: rest, results => do
      e.report job.id ⟨.transforming, done, total,
        "Transforming " ++ Text.join ", " (group.map (·.1))⟩
      let transformed ← e.transformGroup job changes group
      let kept ← e.keepGroup job total done transformed results
      transformGroups e job changes total (done + group.length) rest kept

/-! ## Batches -/

/-- The event at the end of a batch. -/
def completion (s : Scoring.Statistics) (jobId : String) (time : Int) : Message :=
  .about "complete" jobId ("Batch complete: " ++ toString s.total ++ " result(s)") time
    [("average_confidence", .int s.averageConfidence), ("requires_review", .ofNat s.review)]

/-- A number of files. -/
def fileCount (n : Nat) : String := toString n ++ " file(s)"

/-- Told before the file structure is planned. -/
def planningReport (files : Nat) : Report :=
  ⟨.planning, 0, files, "Planning structure for " ++ fileCount files⟩

/-- Transforms the files of a repository. -/
def transformBatch (e : Engine σ) (records : List FileRecord) (spec : Specification)
    (jobId : Option String) : Run σ BatchResult := do
  let job := e.jobOf spec jobId
  let (files, unreadable) ← e.collect spec records [] []
  e.report jobId (planningReport files.length)
  let changes ← e.plan files spec
  let queued := queue files changes
  let total := queued.length
  let transformed ← e.transformGroups job changes total 0 (groups e.settings.batch.size queued)
    unreadable
  e.report jobId ⟨.postProcessing, total, total, "Merging style sheets and generating scaffolds"⟩
  let batch := BatchResult.ofResults (withGenerated e.lanes spec files changes transformed)
  e.report jobId ⟨.complete, total, total, "Transformed " ++ fileCount total⟩
  e.emit jobId (completion batch.statistics)
  return batch

end WebMigration.Engine
