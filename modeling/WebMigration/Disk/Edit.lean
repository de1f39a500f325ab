import WebMigration.Disk.Basic
import WebMigration.Failure.Run

/-!
# Working on a disk

Writing and removing files and making directories, step by step.  A step that cannot be done fails and
changes nothing; a step that meets a mishap fails and leaves what the mishap leaves.
-/

namespace WebMigration.Disk

/-- Tries a change. -/
def attempt (path : String) (c : Change) : Run Disk Unit :=
  Run.onState fun d =>
    let d := { d with tried := d.tried ++ [c], mishaps := d.mishaps.tail }
    match d.mishaps.head?.join with
    | none => (.ok (), d.after c)
    | some m => (.error (fault .system path), d.afterMishap m c)

/-- Writes a file, which may be there before. -/
def write (p : Address) (bytes : List UInt8) : Run Disk Unit := do
  let d ← Run.state
  let l ← Run.ofExcept (d.locate p)
  match d.lookup? l with
  | some .directory => Run.raise (fault .isADirectory p.text)
  | _ => attempt p.text (.write l bytes)

/-- Writes a text into a file. -/
def writeText (p : Address) (s : String) : Run Disk Unit := write p (Text.encode s)

/-- Removes a file. -/
def remove (p : Address) : Run Disk Unit := do
  let d ← Run.state
  let l ← Run.ofExcept (d.locate p)
  match d.lookup? l with
  | some (.file _) => attempt p.text (.remove l)
  | some .directory => Run.raise (fault .isADirectory p.text)
  | none => Run.raise (fault .fileMissing p.text)

/-- Removes a file if there is one. -/
def removeIfThere (p : Address) : Run Disk Unit := do
  if (← Run.state).has p then remove p

/-- Makes the directories on the way that names lead from a location on. -/
def makeWay (path : String) : Location → List String → Run Disk Unit
  | _, [] => return
  | l, name :: rest => do
      let next := if name == ".." then l.dropLast else l ++ [name]
      match (← Run.state).lookup? next with
      | some .directory => makeWay path next rest
      | some (.file _) =>
          Run.raise (fault (if rest.isEmpty then .fileExists else .notADirectory) path)
      | none =>
          attempt path (.makeDirectory next)
          makeWay path next rest

/-- Makes a directory and all directories above it, as far as they are missing. -/
def makeDirectories (p : Address) : Run Disk Unit := makeWay p.text [] p.names

end WebMigration.Disk
