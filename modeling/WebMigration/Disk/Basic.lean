import WebMigration.Disk.Address
import WebMigration.Failure.Basic
import WebMigration.Text.Utf8

/-!
# A disk

Files and directories by their locations, what a change makes of them, and what a mishap leaves when a
change fails.  Mishaps are laid down beforehand, one entry for each change to come, so that a run on a
disk is a function of the disk.
-/

namespace WebMigration

namespace Disk

/-- What is at a location. -/
inductive Entry
  | file (bytes : List UInt8)
  | directory
  deriving DecidableEq, Repr

/-- A change of the disk. -/
inductive Change
  | write (location : Location) (bytes : List UInt8)
  | remove (location : Location)
  | makeDirectory (location : Location)
  deriving DecidableEq, Repr

/-- How a change fails. -/
inductive Mishap
  /-- Nothing is changed. -/
  | refused
  /-- Only the first bytes of a file are written. -/
  | cutShort (kept : Nat)
  deriving DecidableEq, Repr

end Disk

/-- A disk; every location is entered at most once, and the root is a directory that is not entered. -/
structure Disk where
  entries : List (Disk.Location × Disk.Entry) := []
  /-- What will happen to the next changes; when none are left, all goes well. -/
  mishaps : List (Option Disk.Mishap) := []
  /-- The changes that have been tried, in order. -/
  tried : List Disk.Change := []

namespace Disk

/-! ## Looking -/

/-- What is at a location. -/
def lookup? (d : Disk) (l : Location) : Option Entry :=
  if l.isEmpty then some .directory else (d.entries.find? (·.1 == l)).map (·.2)

/-- The errors about a path, with their number and their text. -/
def fault (kind : FaultKind) (path : String) : Fault :=
  let described := fun (number text : String) =>
    Fault.of kind ("[Errno " ++ number ++ "] " ++ text ++ ": " ++ Text.quoted path)
  match kind with
  | .fileMissing => described "2" "No such file or directory"
  | .fileExists => described "17" "File exists"
  | .notADirectory => described "20" "Not a directory"
  | .isADirectory => described "21" "Is a directory"
  | _ => described "5" "Input/output error"

/-- Where names lead from a location on; every step has to start in a directory. -/
def follow (d : Disk) (path : String) : Location → List String → Except Fault Location
  | l, [] => .ok l
  | l, name :: rest =>
      match d.lookup? l with
      | some .directory => follow d path (if name == ".." then l.dropLast else l ++ [name]) rest
      | some (.file _) => .error (fault .notADirectory path)
      | none => .error (fault .fileMissing path)

/-- The location of an address. -/
def locate (d : Disk) (p : Address) : Except Fault Location := d.follow p.text [] p.names

/-- What is at an address. -/
def at? (d : Disk) (p : Address) : Option Entry := (d.locate p).toOption.bind d.lookup?

/-- Whether there is anything at an address. -/
def has (d : Disk) (p : Address) : Bool := (d.at? p).isSome

/-- Whether there is a directory at an address. -/
def hasDirectory (d : Disk) (p : Address) : Bool := d.at? p == some .directory

/-- The bytes of a file. -/
def read (d : Disk) (p : Address) : Except Fault (List UInt8) := do
  match d.lookup? (← d.locate p) with
  | some (.file bytes) => return bytes
  | some .directory => throw (fault .isADirectory p.text)
  | none => throw (fault .fileMissing p.text)

/-- The text with a line feed for every carriage return, with which a line feed may follow. -/
def withLineFeeds : List Char → List Char
  | '\r' :: '\n' :: rest => '\n' :: withLineFeeds rest
  | '\r' :: rest => '\n' :: withLineFeeds rest
  | c :: rest => c :: withLineFeeds rest
  | [] => []

/-- The text that bytes stand for, if they stand for one. -/
def textOf? (bytes : List UInt8) : Option String :=
  (Text.decode? bytes).map fun s => String.ofList (withLineFeeds s.toList)

/-- The text of a file. -/
def readText (d : Disk) (p : Address) : Except Fault String := do
  match textOf? (← d.read p) with
  | some s => return s
  | none => throw (.of .decoding "")

/-! ## Changes -/

/-- The disk without what is at a location. -/
def without (d : Disk) (l : Location) : Disk :=
  { d with entries := d.entries.filter (·.1 != l) }

/-- The disk with something at a location. -/
def put (d : Disk) (l : Location) (e : Entry) : Disk :=
  { d with entries := (l, e) :: d.entries.filter (·.1 != l) }

/-- The disk with something at a location and directories on the way to it. -/
def enter (d : Disk) (l : Location) (e : Entry) : Disk :=
  let way := (List.range l.length).map l.take
  (way.foldl (fun d l => if (d.lookup? l).isSome then d else d.put l .directory) d).put l e

/-- The disk after a change. -/
def after (d : Disk) : Change → Disk
  | .write l bytes => d.put l (.file bytes)
  | .remove l => d.without l
  | .makeDirectory l => d.put l .directory

/-- The disk after a change that failed. -/
def afterMishap (d : Disk) : Mishap → Change → Disk
  | .cutShort kept, .write l bytes => d.put l (.file (bytes.take kept))
  | _, _ => d

/-- The files, the last entered first. -/
def files (d : Disk) : List (Location × List UInt8) :=
  d.entries.filterMap fun e =>
    match e.2 with
    | .file bytes => some (e.1, bytes)
    | .directory => none

/-! ## Lemmas -/

theorem find?_filter_ne (entries : List (Location × Entry)) {l m : Location} (h : m ≠ l) :
    (entries.filter (·.1 != l)).find? (·.1 == m) = entries.find? (·.1 == m) := by
  rw [List.find?_filter]
  congr 1
  funext x
  by_cases hx : x.1 = m <;> simp [hx, h]

theorem lookup?_put (d : Disk) (l m : Location) (e : Entry) (h : l ≠ []) :
    (d.put l e).lookup? m = if m = l then some e else d.lookup? m := by
  by_cases hm : m = l
  · subst hm
    simp [lookup?, put, h]
  · have hne : (l == m) = false := by simpa using fun x => hm x.symm
    simp [lookup?, put, find?_filter_ne _ hm, hm, hne]

theorem lookup?_without (d : Disk) (l m : Location) (h : l ≠ []) :
    (d.without l).lookup? m = if m = l then none else d.lookup? m := by
  by_cases hm : m = l
  · subst hm
    simp [lookup?, without, h]
  · simp only [lookup?, without, find?_filter_ne _ hm]
    simp [hm]

end Disk

end WebMigration
