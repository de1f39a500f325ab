import WebMigration.Text.Path

/-!
# Routes of files

The route that a file below a directory of pages answers to.
-/

namespace WebMigration.Lane

open Text

/-- The directories below which paths are routes; the first that fits counts. -/
def routeDirectories : List String := ["src/pages/", "pages/", "src/app/", "app/"]

/-- The extensions of script files, longest first. -/
def scriptExtensions : List String := [".tsx", ".ts", ".jsx", ".js", ".mjs", ".cjs"]

/-- The text without one of several endings; a line end may follow the ending and stays. -/
def withoutEnding (endings : List String) (s : String) : String :=
  let final := if endsWith "\n" s then "\n" else ""
  let bare := dropEnd final.length s
  match endings.find? fun e => endsWith e bare with
  | some e => dropEnd e.length bare ++ final
  | none => s

/-- The path without the directory of pages in front. -/
def belowRouteDirectory (path : String) : String :=
  match routeDirectories.find? fun d => startsWith d path with
  | some d => drop d.length path
  | none => path

/-- The route without the name of an index file at its end. -/
def withoutIndex (route : String) : String :=
  if route == "index" || endsWith "/index" route then
    let bare := dropEnd 5 route
    if endsWith "/" bare then dropEnd 1 bare else bare
  else route

/-- The route of a file; the route at the root has a name of its own. -/
def routeSegment (path : String) : String :=
  let route := withoutIndex (withoutEnding scriptExtensions (belowRouteDirectory (Path.withSlashes path)))
  if route.isEmpty then "(root)" else route

end WebMigration.Lane
