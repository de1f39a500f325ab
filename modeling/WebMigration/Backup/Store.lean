import WebMigration.Text.Timestamp
import WebMigration.Failure.Run
import WebMigration.Spec.Basic

/-!
# The backup store

Snapshots of original file contents, one for each job.  The store keeps a limited number of them; when
one too many is created, the oldest go, where the time of creation counts first and the order of
creation decides ties.
-/

namespace WebMigration.Backup

/-- The contents of some files; a file may have none. -/
abbrev Contents := Table (Option String)

def Contents.toJson (c : Contents) : Json :=
  .list (c.map fun e => .list [.string e.1, .optional e.2])

/-- The original contents of the files of a job. -/
structure Snapshot where
  jobId : String
  /-- When the snapshot was taken, in microseconds. -/
  time : Int
  files : Contents
  metadata : List (String × Json)
  /-- The place in the order of creation. -/
  sequence : Nat

namespace Snapshot

/-- Whether one snapshot is at most as old as another. -/
def newerOrEqual (a b : Snapshot) : Bool :=
  b.time < a.time || (a.time == b.time && b.sequence ≤ a.sequence)

/-- Whether one snapshot is at least as old as another. -/
def olderOrEqual (a b : Snapshot) : Bool := newerOrEqual b a

end Snapshot

/-- What is told about a snapshot. -/
structure SnapshotInfo where
  jobId : String
  time : Int
  fileCount : Nat
  metadata : List (String × Json)

def SnapshotInfo.toJson (i : SnapshotInfo) : Json :=
  .record [("job_id", .string i.jobId), ("timestamp", .string (Text.timestamp i.time)),
    ("file_count", .ofNat i.fileCount), ("metadata", .record i.metadata)]

def Snapshot.info (s : Snapshot) : SnapshotInfo := ⟨s.jobId, s.time, s.files.length, s.metadata⟩

/-- All snapshots in the order of their creation. -/
structure Store where
  /-- The greatest number of snapshots. -/
  capacity : Nat := 10
  snapshots : List Snapshot := []
  /-- The number of snapshots created so far. -/
  created : Nat := 0

namespace Store

/-- The snapshot of a job. -/
def find? (s : Store) (jobId : String) : Option Snapshot := s.snapshots.find? (·.jobId == jobId)

/-- Whether there is a snapshot of a job. -/
def has (s : Store) (jobId : String) : Bool := s.snapshots.any (·.jobId == jobId)

/-- The store without the snapshot of a job. -/
def remove (s : Store) (jobId : String) : Store :=
  { s with snapshots := s.snapshots.filter (·.jobId != jobId) }

/-- The snapshots that have to go, the oldest first. -/
def surplus (s : Store) : List Snapshot :=
  (s.snapshots.mergeSort Snapshot.olderOrEqual).take (s.snapshots.length - s.capacity)

/-- The store without the snapshots that have to go. -/
def evict (s : Store) : Store := (s.surplus.map (·.jobId)).foldl remove s

/-- The store with one more snapshot, before any have to go. -/
def add (s : Store) (jobId : String) (time : Int) (files : Contents) (metadata : List (String × Json)) :
    Store :=
  { s with
    snapshots := s.snapshots ++ [⟨jobId, time, files, metadata, s.created + 1⟩]
    created := s.created + 1 }

/-- The snapshots from the newest to the oldest. -/
def newestFirst (s : Store) : List Snapshot := s.snapshots.mergeSort Snapshot.newerOrEqual

end Store

/-! ## Operations -/

/-- The number of characters of all contents; files without contents have none to count. -/
def totalSize : Contents → Option Nat
  | [] => some 0
  | (_, content) :: rest => do
      let n ← totalSize rest
      return (← content).length + n

/-- Takes a snapshot of the files of a job at a time.  A job has at most one. -/
def create (jobId : String) (time : Int) (files : Contents) (metadata : List (String × Json)) :
    Run Store String := do
  let store ← Run.state
  if store.has jobId then
    Run.warning "backup:create:failed" [("job_id", .string jobId), ("error", .string "duplicate")]
    Run.fail (.backup ("Backup already exists for job " ++ jobId) .create)
  else
    let added := store.add jobId time files (Json.put metadata "total_files" (.ofNat files.length))
    Run.update fun _ => added.evict
    added.surplus.forM fun old => Run.event "backup:auto-cleanup"
      [("job_id", .string old.jobId), ("reason", .string "max-backups-exceeded")]
    match totalSize files with
    | none => Run.raise (.of .type "")
    | some size =>
        Run.event "backup:create:complete" [("job_id", .string jobId),
          ("file_count", .ofNat files.length), ("backup_size", .ofNat size)]
        return jobId

/-- The snapshot of a job, which must exist. -/
def snapshotOf (jobId : String) : Run Store Snapshot := do
  match (← Run.state).find? jobId with
  | some s => return s
  | none => Run.fail (.backup ("No backup found for job " ++ jobId) .restore)

/-- The original contents of the files of a job. -/
def restore (jobId : String) : Run Store Contents := do
  let snapshot ← snapshotOf jobId
  Run.event "backup:restore:complete"
    [("job_id", .string jobId), ("file_count", .ofNat snapshot.files.length)]
  return snapshot.files

/-- The original content of one file of a job. -/
def restoreFile (jobId path : String) : Run Store (Option String) := do
  match (← snapshotOf jobId).files.get? path with
  | some content => return content
  | none => Run.fail (.backup ("File " ++ path ++ " not found in backup " ++ jobId) .restore)

/-- Removes the snapshot of a job, if there is one. -/
def cleanup (jobId : String) : Run Store Unit := do
  match (← Run.state).find? jobId with
  | none => Run.event "backup:cleanup:not-found" [("job_id", .string jobId)]
  | some snapshot =>
      Run.update (·.remove jobId)
      Run.event "backup:cleanup:complete"
        [("job_id", .string jobId), ("file_count", .ofNat snapshot.files.length)]

/-- Removes all snapshots. -/
def clear : Run Store Unit := do
  let count := (← Run.state).snapshots.length
  Run.update fun s => { s with snapshots := [] }
  Run.event "backup:clear-all" [("count", .ofNat count)]

/-- What is told about the snapshot of a job. -/
def info (store : Store) (jobId : String) : Option SnapshotInfo := (store.find? jobId).map (·.info)

/-- What is told about all snapshots, the newest first. -/
def list (store : Store) : List SnapshotInfo := store.newestFirst.map (·.info)

end WebMigration.Backup
