import WebMigration.Rewrite.Rule
import WebMigration.Structure.Change
import WebMigration.Number.Binary64
import WebMigration.Spec.Basic

/-!
# Migration lanes

A lane holds what is particular to migrating from some frameworks to others: the rewrite rules, where
files go, which files the target needs, and what to tell the semantic pass.
-/

namespace WebMigration

open Number (Binary64)

/-- The knowledge about one kind of migration. -/
structure Lane where
  id : String
  displayName : String
  sources : List String := []
  targets : List String := []
  version : String := "0.0.1"
  /-- A deprecated lane is never chosen. -/
  deprecated : Bool := false
  /-- How well the lane fits a source and a target framework. -/
  applicability : String → String → Except Fault Binary64
  rules : List RewriteRule := []
  /-- Where a file with some content goes; without a change it stays. -/
  plan : String → String → Specification → Option FileChange := fun _ _ _ => none
  /-- The files that the target needs beyond the planned ones. -/
  required : List FileChange → Specification → List FileChange := fun _ _ => []
  /-- The content of a file to be created. -/
  scaffold : FileChange → Specification → Option String := fun _ _ => none
  /-- The path and the content of a configuration for the merged style sheets. -/
  styleConfig : List String → Specification → Option (String × String) := fun _ _ => none
  /-- Adds the knowledge of the lane to an instruction for the semantic pass. -/
  augment : String → Specification → String := fun prompt _ => prompt

namespace Lane

/-- A lane fits fully or not at all, by the names of the frameworks up to case and punctuation. -/
def fitByName (sources targets : List String) (source target : String) : Binary64 :=
  let among := fun (names : List String) (name : String) =>
    (names.map Text.normalizedKey).contains (Text.normalizedKey name)
  .ofNat (if among sources source && among targets target then 1 else 0)

def toJson (l : Lane) : Json :=
  .record [("lane_id", .string l.id), ("display_name", .string l.displayName),
    ("source_frameworks", .strings l.sources), ("target_frameworks", .strings l.targets),
    ("version", .string l.version), ("deprecated", .bool l.deprecated),
    ("rules", .strings (l.rules.map (·.name)))]

end Lane

end WebMigration
