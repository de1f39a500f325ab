import WebMigration.Lane.Basic
import WebMigration.Framework.Profile

/-!
# The registry of lanes and profiles

Lanes by their names and framework profiles by the names of the frameworks.  The lane for a migration
is the one that fits best; among lanes that fit equally well, the one first registered.
-/

namespace WebMigration

open Number (Binary64)

/-- All lanes and profiles. -/
structure LaneRegistry where
  lanes : Table Lane := []
  profiles : Table FrameworkProfile := []

namespace LaneRegistry

/-- Registers a lane, in place of one of the same name. -/
def register (r : LaneRegistry) (lane : Lane) : LaneRegistry :=
  { r with lanes := r.lanes.put lane.id lane }

/-- Registers a profile under its name and its further names. -/
def registerProfile (r : LaneRegistry) (p : FrameworkProfile) : LaneRegistry :=
  { r with profiles :=
      (p.key :: p.aliases.map Text.normalizedKey).foldl (fun t key => t.put key p) r.profiles }

/-- The better of the best lane so far and another one. -/
def better (source target : String) (best : Binary64 × Option Lane) (lane : Lane) :
    Binary64 × Option Lane :=
  if lane.deprecated then best
  else
    match lane.applicability source target with
    | .ok score => if best.1.lt score then (score, some lane) else best
    | .error _ => best

/-- The lane that fits a migration best. -/
def detect? (r : LaneRegistry) (source target : String) : Option Lane :=
  ((r.lanes.map (·.2)).foldl (better source target) (.ofNat 0, none)).2

/-- The lane for a specification. -/
def laneOf? (r : LaneRegistry) (spec : Specification) : Option Lane :=
  r.detect? spec.source.framework spec.target.framework

/-- The rules for a migration. -/
def rulesFor (r : LaneRegistry) (source target : String) : List RewriteRule :=
  match r.detect? source target with
  | some lane => lane.rules
  | none => []

/-- The profile of a framework. -/
def profile (r : LaneRegistry) (framework : String) : FrameworkProfile :=
  (r.profiles.get? (Text.normalizedKey framework)).getD .unknown

end LaneRegistry

end WebMigration
