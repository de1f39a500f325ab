import WebMigration.Lane.AppRouter.Template
import WebMigration.Lane.Route
import WebMigration.Spec.Basic
import WebMigration.Structure.Change

/-!
# The file layout of the app router

Where the files of a single-page site go, and which files the app router needs in addition: a layout,
an error page and a page for missing routes at the root, the global style sheet, and layouts, loading
states and error pages of the routes that ask for them.
-/

namespace WebMigration.Lane.AppRouter

open Text

/-- The path of the global style sheet. -/
def globalStyles : String := "app/globals.css"

/-- Files of the old layout without a counterpart. -/
def removedFiles : List String :=
  ["src/index.js", "src/index.jsx", "src/index.ts", "src/index.tsx", "src/reportWebVitals.js",
    "src/reportWebVitals.ts", "public/index.html"]

/-- Directories that move from the source directory to the root. -/
def rootDirectories : List String := ["components", "context", "hooks"]

/-- The extensions of components. -/
def componentExtensions : List String := ["tsx", "ts", "jsx", "js"]

/-- Whether a path is that of a style sheet. -/
def isStyleSheet (path : String) : Bool :=
  [".css", ".scss", ".sass"].any fun e => endsLike e path

/-- Whether a style sheet counts for the whole site. -/
def isGlobalStyleSheet (path : String) : Bool :=
  ["index.css", "app.css", "globals.css", "global.css"].contains (lower (Path.fileName path))

def isScript (path : String) : Bool := scriptExtensions.any fun e => endsLike e path

/-- Whether a path is that of a test. -/
def isTest (path : String) : Bool :=
  componentExtensions.any fun e =>
    endsLike (".test." ++ e) path || endsLike (".spec." ++ e) path ||
      endsLike ("setuptests." ++ e) path

/-- Whether a path is that of the component at the root of the site. -/
def isAppEntry (path : String) : Bool :=
  componentExtensions.any fun e => endsLike ("/src/app." ++ e) ("/" ++ path)

/-- The name with the extension of typed components. -/
def typedName (name : String) : String :=
  let bare := withoutEnding [".jsx", ".js"] name
  if bare == name then name
  else if endsWith "\n" name then dropEnd 1 bare ++ ".tsx\n" else bare ++ ".tsx"

/-- A move of a file with some content. -/
def moveTo (original newPath role content : String) : FileChange :=
  { originalPath := original, newPath, action := .move, role, content := some content }

/-- The change of a page. -/
def pageChange (original relative content base : String) : FileChange :=
  let segment := routeSegment relative
  let atRoot := segment == "(root)"
  { moveTo original (if atRoot then base ++ "/page.tsx" else base ++ "/" ++ segment ++ "/page.tsx")
      "page" content with
    isRoute := true
    routeSegment := some segment
    needsLayout := !atRoot && !contains "/" segment
    needsLoading := contains "async" content && contains "fetch" content
    needsError := contains "try" content && contains "catch" content }

/-- The change of a route that answers requests. -/
def requestChange (original relative content base : String) : FileChange :=
  let segment := routeSegment (drop 6 relative)
  { moveTo original (base ++ "/" ++ segment ++ "/route.ts") "api" content with
    isRoute := true
    routeSegment := some segment }

/-- The change of a file in a directory that moves to the root. -/
def componentChange? (original path content components : String) : Option FileChange :=
  (rootDirectories.find? fun d => startsWith ("src/" ++ d ++ "/") path).map fun d =>
    let target := if d == "components" then components else d
    moveTo original (target ++ "/" ++ typedName (drop ("src/" ++ d ++ "/").length path))
      "component" content

/-- Where a file goes; files that are not mentioned stay. -/
def plan (original content : String) (spec : Specification) : Option FileChange :=
  let path := Path.withSlashes original
  let base := spec.target.fileStructure.pages
  let relative := if startsWith "src/" path then drop 4 path else path
  if removedFiles.contains path then
    some { originalPath := original, newPath := "", action := .delete, role := "other",
           content := some content }
  else if isStyleSheet path then
    if isGlobalStyleSheet path then some (moveTo original globalStyles "style" content) else none
  else if !isScript path then none
  else if isTest path then
    some (moveTo original ("__tests__/" ++ typedName (Path.fileName path)) "test" content)
  else if isAppEntry path then
    some { moveTo original (base ++ "/page.tsx") "page" content with
           isRoute := true, routeSegment := some "(root)", needsLayout := true }
  else if startsWith "pages/api/" relative then some (requestChange original relative content base)
  else if startsWith "pages/" relative then some (pageChange original relative content base)
  else componentChange? original path content spec.target.fileStructure.components

/-! ## Required files -/

/-- A file that the layout may need: its path, its role and its route. -/
structure Wanted where
  path : String
  role : String
  segment : Option String

/-- The files that every site needs. -/
def wantedAtRoot (base : String) : List Wanted :=
  [⟨base ++ "/layout.tsx", "layout", some "(root)"⟩, ⟨base ++ "/error.tsx", "error", some "(root)"⟩,
    ⟨base ++ "/not-found.tsx", "page", some "(root)"⟩, ⟨globalStyles, "style", none⟩]

/-- The files that a planned page outside of the root directory needs. -/
def wantedBy (base : String) (c : FileChange) : List Wanted :=
  let directory := Path.beforeLastSlash c.newPath
  if !c.isRoute || c.role != "page" || directory == base then []
  else
    (if c.needsLayout then [⟨directory ++ "/layout.tsx", "layout", c.routeSegment⟩] else []) ++
    (if c.needsLoading then [⟨directory ++ "/loading.tsx", "loading", c.routeSegment⟩] else []) ++
    (if c.needsError then [⟨directory ++ "/error.tsx", "error", c.routeSegment⟩] else [])

/-- The wanted files whose paths are not taken, each path once. -/
def notTaken (taken : List String) : List Wanted → List Wanted
  | [] => []
  | w :: rest => if taken.contains w.path then notTaken taken rest
      else w :: notTaken (w.path :: taken) rest

/-- The change that creates a wanted file. -/
def Wanted.change (w : Wanted) : FileChange :=
  { originalPath := "", newPath := w.path, action := .create, role := w.role,
    isRoute := w.role != "style", routeSegment := w.segment }

/-- The files that the app router needs and the plan does not produce. -/
def required (planned : List FileChange) (spec : Specification) : List FileChange :=
  if ["approuter", "app"].contains (normalizedKey spec.target.routing) then
    let base := spec.target.fileStructure.pages
    (notTaken (planned.map (·.newPath))
      (wantedAtRoot base ++ planned.flatMap (wantedBy base))).map (·.change)
  else []

/-- The content of a file to be created, by its role. -/
def scaffold (c : FileChange) (spec : Specification) : Option String :=
  if c.role == "layout" then
    some (if c.newPath == spec.target.fileStructure.pages ++ "/layout.tsx" then rootLayout
      else segmentLayout)
  else if c.role == "error" then some errorPage
  else if c.role == "loading" then some loadingPage
  else if c.role == "style" then some styleDirectives
  else if c.role == "page" then
    some (if contains "not-found" c.newPath then notFoundPage else emptyPage)
  else none

/-- The configuration of the style tool, once style sheets were merged. -/
def styleConfig (merged : List String) (spec : Specification) : Option (String × String) :=
  if merged.isEmpty then none
  else
    let directories :=
      (if ["pagesrouter", "pages"].contains (normalizedKey spec.target.routing) then ["pages"] else []) ++
        ["app", "components"]
    some ("tailwind.config.ts", styleToolConfig (directories.map scriptsBelow))

end WebMigration.Lane.AppRouter
