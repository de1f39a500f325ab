import WebMigration.Command.Session
import WebMigration.Engine.Basic
import WebMigration.Result.Basic

/-!
# Source trees

Reading the files below a directory, writing results into it, and giving it its old contents back.
-/

namespace WebMigration.Command

open Disk (Address Location)

/-! ## Reading -/

/-- The directories that are never read. -/
def skippedDirectories : List String :=
  [".git", "node_modules", ".next", "build", "dist", "coverage", "__pycache__"]

/-- The order of a walk: the files of a directory by their names, then what is in its directories. -/
def comesBefore : List String → List String → Bool
  | [a], [b] => a ≤ b
  | [_], _ :: _ => true
  | _ :: _, [_] => false
  | a :: as, b :: bs => if a == b then comesBefore as bs else a ≤ b
  | [], _ => true
  | _ :: _, [] => false

/-- The files below a directory, with the names that lead to them, in the order of a walk. -/
def filesBelow (d : Disk) (root : Location) : List (Location × List UInt8) :=
  (d.files.filterMap fun f =>
    let names := f.1.drop root.length
    if root.isPrefixOf f.1 && !names.dropLast.any skippedDirectories.contains then
      some (names, f.2)
    else none).mergeSort fun a b => comesBefore a.1 b.1

/-- The records of files that hold text. -/
def recordsOf (root : Address) : List (Location × List UInt8) → Action (List FileRecord)
  | [] => return []
  | (names, bytes) :: rest => do
      let path := Text.join "/" names
      match Disk.textOf? bytes with
      | some content => return ⟨path, some content⟩ :: (← recordsOf root rest)
      | none =>
          Session.tell .debug ("Skipping binary file " ++ (root.below path).text)
          recordsOf root rest

/-- Reads every file that holds text below a directory. -/
def collectFiles (root : Address) : Action (List FileRecord) := do
  recordsOf root (filesBelow (← Session.disk?) root.names)

/-! ## Writing -/

/-- The error of writing what is no text. -/
def notWritable : Fault := .of .type "data must be str, not NoneType"

/-- Writes a text to a file below a directory, which may not be there yet. -/
def writeBelow (root : Address) (path : String) (content : Option String) : Action Unit := do
  let target := root.below path
  Session.onDisk (Disk.makeDirectories target.parent)
  Session.onDisk (Disk.writeText target (← Run.demand notWritable content))

/-- Writes results below a directory and keeps in mind which files are new. -/
def writeResults (root : Address) : Table FileResult → Action Unit
  | [] => return
  | (path, result) :: rest => do
      let target := root.below path
      if !(← Session.disk?).has target then
        Run.update fun s => { s with written := s.written ++ [target] }
      writeBelow root path result.code
      writeResults root rest

/-- Removes the originals that have no result at their path. -/
def removeRelocated (root : Address) (results : Table FileResult) : Table String → Action Unit
  | [] => return
  | (path, _) :: rest => do
      if !results.has path then Session.onDisk (Disk.removeIfThere (root.below path))
      removeRelocated root results rest

/-! ## Restoring -/

/-- Removes files as far as they are there. -/
def removeAll : List Address → Action Unit
  | [] => return
  | p :: rest => do
      Session.onDisk (Disk.removeIfThere p)
      removeAll rest

/-- Writes contents below a directory. -/
def writeAll (root : Address) : Table String → Action Unit
  | [] => return
  | (path, content) :: rest => do
      writeBelow root path (some content)
      writeAll root rest

/-- Gives a directory its old contents back: the new files go, and the originals are written again. -/
def restore (root : Address) (contents : Table String) : Action Unit := do
  removeAll (← Run.state).written
  writeAll root contents

end WebMigration.Command
