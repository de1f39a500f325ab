import WebMigration.Lane.Registry
import WebMigration.Text.Path

/-!
# Structure plans

The plan for a repository asks the lane where each file goes, adds the files that the target needs
with their contents, and puts layouts first, then what is created, moved and deleted, shallow paths
before deep ones.
-/

namespace WebMigration.Structure

/-- The files of a repository: their paths and contents. -/
abbrev Files := Table String

/-- The place of an action in a plan. -/
def actionRank : ChangeAction → Nat
  | .create => 0
  | .move => 1
  | .rename => 1
  | .delete => 2
  | .other _ => 3

/-- The path by which a change is sorted. -/
def sortPath (c : FileChange) : String := if c.newPath.isEmpty then c.originalPath else c.newPath

/-- Whether a list of numbers comes before another one in the order of dictionaries, or is its start. -/
def precedes : List Nat → List Nat → Bool
  | [], _ => true
  | _ :: _, [] => false
  | m :: ms, n :: ns => m < n || (m == n && precedes ms ns)

/-- Whether a change comes before another one in a plan, or may. -/
def beforeOrEqual (a b : FileChange) : Bool :=
  let layout := fun (c : FileChange) => if c.role == "layout" then 0 else 1
  let keys := fun (c : FileChange) =>
    [layout c, actionRank c.action, Text.Path.depth (sortPath c)]
  if keys a == keys b then !(sortPath b < sortPath a) else precedes (keys a) (keys b)

/-- A change with its content, made by the lane where there is none. -/
def withScaffold (lane : Lane) (spec : Specification) (c : FileChange) : FileChange :=
  match c.content with
  | some _ => c
  | none => { c with content := lane.scaffold c spec }

/-- The changes that a lane plans for a repository, in no particular order. -/
def unsorted (lane : Lane) (files : Files) (spec : Specification) : List FileChange :=
  let planned := files.filterMap fun f => lane.plan f.1 f.2 spec
  planned ++ (lane.required planned spec).map (withScaffold lane spec)

/-- The plan for a repository; without a lane nothing changes. -/
def plan (lanes : LaneRegistry) (files : Files) (spec : Specification) : List FileChange :=
  match lanes.laneOf? spec with
  | some lane => (unsorted lane files spec).mergeSort beforeOrEqual
  | none => []

end WebMigration.Structure
