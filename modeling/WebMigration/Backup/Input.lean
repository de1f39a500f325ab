import WebMigration.Backup.Store
import WebMigration.Json.Access

/-!
# Files to back up

The forms in which the files of a job may be given: contents by path, records of files, or structured
values.  A record or a value without content counts as an empty file.
-/

namespace WebMigration.Backup

/-- The files of a job as they are given. -/
inductive FileInput
  | table (entries : List (String × Option String))
  | records (files : List (String × Option String))
  | values (items : List Json)

namespace FileInput

/-- The path and the content that a structured value names; it must name a path. -/
def entryOf (v : Json) : Except Fault (String × Option String) :=
  match v with
  | .record fields =>
      match Json.lookup? fields "path" with
      | some path => .ok (path.asText, some (v.text "content"))
      | none => .error (.of .key "path")
  | _ => .error (.of .type "")

/-- Paths and contents in the order in which they are given. -/
def entries : FileInput → Except Fault (List (String × Option String))
  | table entries => .ok entries
  | records files => .ok (files.map fun f => (f.1, some (f.2.getD "")))
  | values items => items.mapM entryOf

/-- The contents to keep; of several files with one path the last counts. -/
def contents (input : FileInput) : Except Fault Contents := do
  return (← input.entries).foldl (fun kept e => kept.put e.1 e.2) []

end FileInput

end WebMigration.Backup
