import WebMigration.Engine.Basic
import WebMigration.Result.Basic
import WebMigration.Structure.Placement
import WebMigration.Style.Sheet

/-!
# Files that a batch adds

What joins the results of a batch after its files have been transformed: merged style sheets, style
sheets that stay as they are, the files that the plan creates, and a configuration for merged styles.
-/

namespace WebMigration.Engine

/-- The results of a batch by their paths. -/
abbrev Results := Table FileResult

variable (lanes : LaneRegistry) (spec : Specification)

/-! ## Merged style sheets -/

/-- Whether a change moves a style sheet of the repository. -/
def movesStyle (files : Contents) (c : FileChange) : Bool :=
  c.role == "style" && c.action == .move && files.has c.originalPath

/-- The style sheets that are merged, by the path of the merged one. -/
def mergeGroups (files : Contents) (changes : List FileChange) : Table (List String) :=
  (changes.filter (movesStyle files)).foldl
    (fun groups c => groups.put c.newPath ((groups.get? c.newPath).getD [] ++ [c.originalPath])) []

/-- What stands before the merged style sheets at a path. -/
def stylePrelude (path : String) : String :=
  ((lanes.laneOf? spec).bind fun lane =>
    lane.scaffold ⟨"", path, .create, "style", none, false, none, false, false, false⟩ spec).getD ""

/-- Style sheets one after the other, each under a comment with its path. -/
def concatenated (sheets : List (String × Option String)) : String :=
  Text.join "\n\n" (sheets.map fun s => "/* From " ++ s.1 ++ " */\n" ++ s.2.getD "None")

/-- The merged style sheet at a path. -/
def mergedSheet (files : Contents) (path : String) (sources : List String) : FileResult :=
  let sheets := sources.map fun s => (s, (files.get? s).join)
  let before := stylePrelude lanes spec path
  .generated path (Style.merge (Contents.texts sheets) before) (concatenated sheets) "style" "css" spec
    (("Merged from: " ++ Text.join ", " sources) ::
      if Text.contains "@tailwind" before then ["Added Tailwind directives"] else [])

/-- The results with the merged style sheets. -/
def withMergedSheets (files : Contents) (changes : List FileChange) (results : Results) : Results :=
  (mergeGroups files changes).foldl
    (fun rs g => rs.put g.1 (mergedSheet lanes spec files g.1 g.2)) results

/-- The paths of the style sheets that were merged. -/
def mergedPaths (files : Contents) (changes : List FileChange) : List String :=
  (mergeGroups files changes).flatMap (·.2)

/-! ## Other style sheets -/

/-- Whether a plan deletes a file. -/
def deletes (changes : List FileChange) (path : String) : Bool :=
  changes.any fun c => c.action == .delete && c.originalPath == path

/-- Whether a plan changes a style sheet. -/
def changesStyle (changes : List FileChange) (path : String) : Bool :=
  changes.any fun c => c.role == "style" && c.originalPath == path

/-- The results with one file, if it is a style sheet that stays as it is. -/
def keepSheet (changes : List FileChange) (results : Results) (file : String × Option String) :
    Results :=
  if Structure.isStyleSheet file.1 && !changesStyle changes file.1 && !deletes changes file.1 &&
      !results.has file.1 then
    results.put file.1 (.generated file.1 file.2 file.2 "style" "css" spec
      ["Style sheet kept unchanged"])
  else results

/-- The results with the style sheets that stay as they are. -/
def withKeptSheets (files : Contents) (changes : List FileChange) (results : Results) : Results :=
  files.foldl (keepSheet spec changes) results

/-! ## Created files -/

/-- The notes of a created file. -/
def createdNotes (c : FileChange) : List String :=
  let segment := c.routeSegment.getD ""
  ["Generated " ++ c.role ++ " file", "Action: " ++ c.action.name] ++
    if segment.isEmpty then [] else ["Route: " ++ segment]

/-- The results with a created file that has content, unless its path is taken. -/
def addCreated (results : Results) (c : FileChange) : Results :=
  let content := c.content.getD ""
  if c.action != .create || results.has c.newPath || content.isEmpty then results
  else
    results.put c.newPath (.generated c.newPath content "" c.role spec.target.language spec
      (createdNotes c) [] (some { c.summary with path := c.newPath }))

/-- The results with the files that a plan creates. -/
def withCreatedFiles (changes : List FileChange) (results : Results) : Results :=
  changes.foldl (addCreated spec) results

/-! ## Configuration -/

/-- What the configuration of the style tool depends on. -/
def styleToolchain : List String := ["tailwindcss", "autoprefixer", "postcss"]

/-- The configuration for merged style sheets, if the lane has one. -/
def styleConfig? (merged : List String) : Option (String × String) :=
  if merged.isEmpty then none else (lanes.laneOf? spec).bind fun lane => lane.styleConfig merged spec

/-- The results with the configuration for merged style sheets. -/
def withStyleConfig (merged : List String) (results : Results) : Results :=
  match styleConfig? lanes spec merged with
  | none => results
  | some (path, content) =>
      results.put path (.generated path content "" "config" spec.target.language spec
        ["Generated " ++ path, "Built from " ++ toString merged.length ++ " merged style sheet(s)"]
        styleToolchain (some ⟨.create, path, false, none⟩))

/-- The results with everything that a batch adds. -/
def withGenerated (files : Contents) (changes : List FileChange) (results : Results) : Results :=
  withStyleConfig lanes spec (mergedPaths files changes)
    (withCreatedFiles spec changes
      (withKeptSheets spec files changes (withMergedSheets lanes spec files changes results)))

end WebMigration.Engine
