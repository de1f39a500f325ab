import WebMigration.Json.Access

/-!
# Changes of the file structure

A planned change says where one file goes, or which file the target layout needs in addition.
-/

namespace WebMigration

/-- What happens to a file. -/
inductive ChangeAction
  | move | create | delete | rename
  /-- An action named by someone else. -/
  | other (name : String)
  deriving DecidableEq, Repr

namespace ChangeAction

def name : ChangeAction → String
  | move => "move"
  | create => "create"
  | delete => "delete"
  | rename => "rename"
  | other name => name

def ofName (name : String) : ChangeAction :=
  if name == "move" then move
  else if name == "create" then create
  else if name == "delete" then delete
  else if name == "rename" then rename
  else other name

end ChangeAction

/-- A planned change of a file. -/
structure FileChange where
  /-- The path so far, empty for files that do not exist yet. -/
  originalPath : String
  /-- The path from now on, empty for files that go. -/
  newPath : String
  action : ChangeAction
  /-- The role that the file plays. -/
  role : String
  content : Option String := none
  isRoute : Bool := false
  routeSegment : Option String := none
  needsLayout : Bool := false
  needsLoading : Bool := false
  needsError : Bool := false
  deriving DecidableEq, Repr

/-- A change of a file in short. -/
structure ChangeSummary where
  action : ChangeAction
  path : String
  isRoute : Bool := false
  routeSegment : Option String := none
  deriving DecidableEq, Repr

def ChangeSummary.toJson (c : ChangeSummary) : Json :=
  .record [("action", .string c.action.name), ("original_path", .string c.path),
    ("is_route_file", .bool c.isRoute), ("route_segment", .optional c.routeSegment)]

namespace FileChange

/-- The change without its contents and needs. -/
def summary (c : FileChange) : ChangeSummary := ⟨c.action, c.originalPath, c.isRoute, c.routeSegment⟩

def toJson (c : FileChange) : Json :=
  .record [("original_path", .string c.originalPath), ("new_path", .string c.newPath),
    ("action", .string c.action.name), ("file_type", .string c.role),
    ("content", .optional c.content), ("is_route_file", .bool c.isRoute),
    ("route_segment", .optional c.routeSegment), ("requires_layout", .bool c.needsLayout),
    ("requires_loading", .bool c.needsLoading), ("requires_error", .bool c.needsError)]

def ofJson (v : Json) : FileChange :=
  { originalPath := v.text "original_path", newPath := v.text "new_path",
    action := .ofName (v.text "action"), role := v.text "file_type", content := v.text? "content",
    isRoute := v.flag "is_route_file", routeSegment := v.text? "route_segment",
    needsLayout := v.flag "requires_layout", needsLoading := v.flag "requires_loading",
    needsError := v.flag "requires_error" }

end FileChange

end WebMigration
