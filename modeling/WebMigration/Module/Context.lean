import WebMigration.Json.Access
/-!
# File contexts

What is known about a file while it is transformed.  The lists of imports and related files double as
its audit trail: the syntax pass adds a line for everything that it rewrites.
-/

namespace WebMigration

/-- What is known about a file. -/
structure FileContext where
  path : String
  /-- The role that the file plays: page, component, module and so on. -/
  role : String := "module"
  dependencies : List String := []
  imports : List String := []
  exports : List String := []
  relatedFiles : List String := []
  deriving DecidableEq, Repr

namespace FileContext

def toJson (c : FileContext) : Json :=
  .record [("file_path", .string c.path), ("file_type", .string c.role),
    ("dependencies", .strings c.dependencies), ("imports", .strings c.imports),
    ("exports", .strings c.exports), ("related_files", .strings c.relatedFiles)]

/-- The context with the fields of a record; `path` is the path where none is given. -/
def ofJson (v : Json) (path : String) : FileContext :=
  { path := v.text "file_path" path, role := v.text "file_type" "module",
    dependencies := v.texts "dependencies", imports := v.texts "imports",
    exports := v.texts "exports", relatedFiles := v.texts "related_files" }

/-- Adds a line about a rewritten import. -/
def noteImport (c : FileContext) (entry : String) : FileContext :=
  { c with imports := c.imports ++ [entry] }

/-- Adds lines about other rewrites. -/
def note (c : FileContext) (entries : List String) : FileContext :=
  { c with relatedFiles := c.relatedFiles ++ entries }

end FileContext

end WebMigration
