import WebMigration.Module.Source
import WebMigration.Module.Context
import WebMigration.Text.Pattern
import WebMigration.Text.Path

/-!
# The surface of a file

What a file imports and exports, and the role that its path gives it.  The surface is read off the
syntax tree where there is one; other files are scanned for what looks like imports and exports.
-/

namespace WebMigration.Module

open Text

/-! ## Scanning -/

def blanks : Pattern := .some true (.one isSpace)

/-- A module name in quotes, which is kept. -/
def quotedModule : Pattern :=
  let quote := fun c => c == '\'' || c == '"'
  .all [.one quote, .capture (.some true (.one fun c => !quote c)), .one quote]

/-- What looks like an import. -/
def importPattern : Pattern :=
  let clause := .some true (.one fun c => isWord c || isSpace c || c == '*' || c == '\x7b' ||
    c == '\x7d' || c == ',')
  .all [.literal "import", blanks,
    .optional true (.all [clause, blanks, .literal "from", blanks]), quotedModule]

/-- The optional blanks of a call. -/
def gap : Pattern := .many true (.one isSpace)

/-- What looks like a call that loads a module. -/
def requirePattern : Pattern :=
  .all [.literal "require(", gap, quotedModule, gap, .literal ")"]

/-- What looks like an exported declaration; its name is kept. -/
def exportPattern : Pattern :=
  let keyword := [Pattern.literal "class", .literal "const", .literal "let", .literal "var"].foldl
    .either (.both (.literal "function") (.optional true (.literal "*")))
  .all [.literal "export", blanks, .optional true (.both (.literal "default") blanks),
    .optional true (.both (.literal "async") blanks), keyword, blanks,
    .capture (.some true (.one isWord))]

/-- What looks like a default export. -/
def defaultPattern : Pattern :=
  .all [.literal "export", blanks, .literal "default", .wordEdge true]

/-- Each name once, at its first place. -/
def distinctNames (names : List String) : List String :=
  names.foldl (fun kept n => if kept.contains n then kept else kept ++ [n]) []

/-- The modules that a text seems to import. -/
def scannedImports (code : String) : List String :=
  distinctNames (importPattern.captures code ++ requirePattern.captures code)

/-- The names that a text seems to export. -/
def scannedExports (code : String) : List String :=
  distinctNames (exportPattern.captures code ++
    (if defaultPattern.occursIn code then ["default"] else []))

/-! ## Packages -/

/-- The package that a module belongs to; modules of the repository belong to none. -/
def package? (name : String) : Option String :=
  if name.isEmpty || startsWith "." name || startsWith "/" name then none
  else
    let parts := splitOn "/" name
    if startsWith "@" name && 1 < parts.length then some (join "/" (parts.take 2)) else parts.head?

/-- The packages that some modules belong to. -/
def packages (modules : List String) : List String :=
  distinctNames ((modules.filterMap package?).filter fun p => !p.isEmpty)

/-- The packages that a text seems to import. -/
def scannedPackages (code : String) : List String := packages (scannedImports code)

/-! ## Roles -/

/-- The parts of a path that give a file its role; the first that occurs counts. -/
def roleMarkers : List (String × String) :=
  [("/pages/", "page"), ("/routes/", "page"), ("/components/", "component"),
    ("/layouts/", "layout"), ("/api/", "api"), ("/utils/", "util"), ("/helpers/", "util"),
    ("/config", "config"), (".test.", "test"), (".spec.", "test")]

/-- The role of a file. -/
def roleOf (path : String) : String :=
  let marked := "/" ++ lower (Path.withSlashes path)
  ((roleMarkers.find? fun m => contains m.1 marked).map (·.2)).getD "module"

/-! ## Contexts -/

/-- Whether a grammar claims the extension of a path. -/
def hasGrammar (path : String) : Bool := (Grammars.builtIn.detect? path).isSome

/-- The modules that a file imports and the names that it exports. -/
def surface (path code : String) (language : Option String) : List String × List String :=
  let scanned := (scannedImports code, scannedExports code)
  if hasGrammar path then
    match Source.readAs? (Source.dialectOf path language) code path with
    | some source => (distinctNames (source.references.map (·.source)), source.exports)
    | none => scanned
  else scanned

/-- The context of a file before anything is done to it. -/
def contextOf (path code : String) (language : Option String) : FileContext :=
  let (imports, exports) := surface path code language
  { path, role := roleOf path, dependencies := packages imports, imports, exports }

@[simp] theorem contextOf_path (path code : String) (language : Option String) :
    (contextOf path code language).path = path := by
  unfold contextOf
  split
  rfl

end WebMigration.Module
