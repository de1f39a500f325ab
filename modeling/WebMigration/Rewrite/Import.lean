import WebMigration.Module.Source
import WebMigration.Module.Context
import WebMigration.Rewrite.Edit
import WebMigration.Text.Path

/-!
# Rewriting imports

Modules are renamed by a table, or abbreviated by the aliases of directories, and an import of the
same bindings from the same module is kept only once.
-/

namespace WebMigration.Rewrite

open Syntax
open WebMigration.Module (Source Reference)
open Text

/-! ## Renaming modules -/

/-- The stem of a table entry: its key without slashes at its end. -/
def stemOf (key : String) : String := withoutTrailingSlashes key

/-- Whether an entry covers a module: its stem is not empty and a slash follows it. -/
def covers (source : String) (entry : String × String) : Bool :=
  !(stemOf entry.1).isEmpty && startsWith (stemOf entry.1 ++ "/") source

/-- The entry with the longer key, the first of two with equally long ones. -/
def longerKey (best : Option (String × String)) (entry : String × String) : Option (String × String) :=
  match best with
  | some b => if b.1.length < entry.1.length then some entry else some b
  | none => some entry

/-- The new name of a module: that of its own entry, or else that of the entry with the longest key
that covers it, followed by the rest of the name. -/
def mapModule (source : String) (mappings : Table String) : Option String :=
  match mappings.get? source with
  | some target => some target
  | none =>
      ((mappings.filter (covers source)).foldl longerKey none).map fun (key, target) =>
        withoutTrailingSlashes target ++ drop (stemOf key).length source

/-! ## Abbreviating paths -/

/-- Whether a module is named by a path relative to the file. -/
def isRelative (source : String) : Bool := startsWith "./" source || startsWith "../" source

/-- The path that a module denotes, seen from a file. -/
def denotedPath (source filePath : String) : String :=
  Path.normalize (Path.below (Path.directory (Path.withSlashes filePath)) source)

/-- The path without the source directory in front. -/
def withoutSourceDirectory (path : String) : String :=
  if startsWith "src/" path then drop 4 path else path

/-- The abbreviation of a relative module name by the aliases of directories.  Modules outside of the
repository and in directories without an alias have none. -/
def pathAlias (source filePath : String) (aliases : Table String) : Option String :=
  if aliases.isEmpty || !isRelative source then none
  else
    let path := denotedPath source filePath
    if startsWith ".." path then none
    else
      let (head, rest) := partitionOn "/" (withoutSourceDirectory path)
      (aliases.get? head).map fun a => if rest.isEmpty then a else a ++ "/" ++ rest

/-! ## The edits of a file -/

/-- What becomes of the module that a reference names: its new name and the line for the audit
trail. -/
def retarget (mappings aliases : Table String) (filePath : String) (r : Reference) :
    Option (String × String) :=
  let arrow := fun (target : String) => r.source ++ " -> " ++ target
  match (mapModule r.source mappings).filter (· != r.source) with
  | some target =>
      some (target, if r.kind == .dynamic then "dynamic: " ++ arrow target else arrow target)
  | none =>
      (pathAlias r.source filePath aliases).map fun a => (a, arrow a ++ " (path alias)")

/-- The references whose modules get new names, each with its name and its line. -/
def renamings (s : Source) (mappings aliases : Table String) (filePath : String) :
    List (Reference × String × String) :=
  s.references.filterMap fun r =>
    (retarget mappings aliases filePath r).map fun change => (r, change)

/-- Gives every module that a file names its new name. -/
def renameModules (s : Source) (mappings aliases : Table String) (context : FileContext) :
    Except Fault String × FileContext :=
  let changes := renamings s mappings aliases context.path
  let edits := changes.map fun (r, target, _) =>
    Edit.replacing r.sourceSpan.start r.sourceSpan.stop target
  let noted := changes.foldl (fun c change => c.noteImport change.2.2) context
  (if edits.isEmpty then .ok s.text else Edit.apply s.content.list edits, noted)

/-- The references that repeat the key of an earlier one. -/
def repeatedFrom (seen : List String) : List Reference → List Reference
  | [] => []
  | r :: rest =>
      if seen.contains r.dedupeKey then r :: repeatedFrom seen rest
      else repeatedFrom (seen ++ [r.dedupeKey]) rest

/-- The static imports that repeat an earlier one. -/
def repeatedImports (s : Source) : List Reference :=
  repeatedFrom [] (s.references.filter (·.kind == .static))

/-- The edit that removes an import with the line end right after it. -/
def removeImport (s : Source) (r : Reference) : Edit :=
  let newline := slice s.content.list r.span.stop (r.span.stop + 1) == [10]
  Edit.replacing r.span.start (if newline then r.span.stop + 1 else r.span.stop) ""

/-- The text of a file without the imports that repeat an earlier one. -/
def withoutRepeatedImports (s : Source) : Except Fault String :=
  let edits := (repeatedImports s).map (removeImport s)
  if edits.isEmpty then .ok s.text else Edit.apply s.content.list edits

end WebMigration.Rewrite
