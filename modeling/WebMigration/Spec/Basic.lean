import WebMigration.Json.Value

/-!
# Migration specifications

What a migration is to do: the stack that files come from, the stack they go to, the names that
change, and the rules that the result is checked against.  A specification never changes during a
job.
-/

namespace WebMigration

/-- A table of names in the order of its document. -/
abbrev Table (α : Type) := List (String × α)

namespace Table

variable {α : Type}

/-- The entry for a name. -/
def get? (t : Table α) (name : String) : Option α := (t.find? (·.1 == name)).map (·.2)

/-- Whether there is an entry for a name. -/
def has (t : Table α) (name : String) : Bool := t.any (·.1 == name)

/-- The table with one entry added at its end or replaced in place. -/
def put (t : Table α) (name : String) (value : α) : Table α :=
  if t.has name then t.map fun e => if e.1 == name then (name, value) else e
  else t ++ [(name, value)]

/-- The table without the entry for a name. -/
def erase (t : Table α) (name : String) : Table α := t.filter (·.1 != name)

end Table

/-- Directories of the target. -/
structure FileStructure where
  pages : String := "app"
  components : String := "components"
  layouts : String := "app"
  api : String := "app/api"
  deriving Repr

/-- How components of the target are written. -/
structure ComponentConventions where
  fileExtension : String := ".tsx"
  namingConvention : String := "PascalCase"
  exportStyle : String := "default"
  serverComponents : Bool := false
  deriving Repr

/-- The stack that files come from. -/
structure SourceStack where
  language : String := "JavaScript"
  framework : String := "React"
  version : String := ""
  routing : String := ""
  patterns : Table Json := []
  buildTool : String := ""
  packageManager : String := ""
  deriving Repr

/-- The stack that files go to. -/
structure TargetStack where
  language : String := "TypeScript"
  framework : String := "Next.js"
  version : String := ""
  routing : String := "app-router"
  fileStructure : FileStructure := {}
  componentConventions : ComponentConventions := {}
  syntaxMappings : Table String := []
  apiMappings : Table String := []
  lifecycleMappings : Table String := []
  buildTool : String := ""
  packageManager : String := ""
  deriving Repr

/-- Names that change. -/
structure SymbolMappings where
  imports : Table String := []
  routing : Table String := []
  components : Table String := []
  styling : Table Json := []
  stateManagement : Table Json := []
  buildSystem : Table Json := []
  deriving Repr

/-- A change of the target that breaks uses of some names. -/
structure BreakingChange where
  id : String
  description : String := ""
  affectedApis : List String := []
  migrationPath : String := ""
  autoFixable : Bool := false
  deriving Repr, DecidableEq

/-- A name that should no longer be used. -/
structure Deprecation where
  id : String
  deprecated : String
  replacement : String := ""
  version : String := ""
  removalVersion : Option String := none
  deriving Repr, DecidableEq

/-- The rules that a result is checked against. -/
structure MigrationRules where
  mustPreserve : List String := []
  mustTransform : List String := []
  mustRemove : List String := []
  mustRefactor : List String := []
  breakingChanges : List BreakingChange := []
  deprecations : List Deprecation := []
  deriving Repr, DecidableEq

/-- Facts about the specification itself. -/
structure SpecMetadata where
  version : String := "1.0.0"
  generatedAt : String := ""
  estimatedComplexity : String := "medium"
  estimatedDuration : String := ""
  deriving Repr

/-- A migration specification. -/
structure Specification where
  source : SourceStack := {}
  target : TargetStack := {}
  mappings : SymbolMappings := {}
  rules : MigrationRules := {}
  metadata : SpecMetadata := {}
  deriving Repr

/-! ## As structured values -/

/-- A table of texts as a record. -/
def Table.ofStrings (t : Table String) : Json := .record (t.map fun e => (e.1, .string e.2))

def FileStructure.toJson (s : FileStructure) : Json :=
  .record [("pages", .string s.pages), ("components", .string s.components),
    ("layouts", .string s.layouts), ("api", .string s.api)]

def ComponentConventions.toJson (c : ComponentConventions) : Json :=
  .record [("file_extension", .string c.fileExtension),
    ("naming_convention", .string c.namingConvention), ("export_style", .string c.exportStyle),
    ("server_components", .bool c.serverComponents)]

def SourceStack.toJson (s : SourceStack) : Json :=
  .record [("language", .string s.language), ("framework", .string s.framework),
    ("version", .string s.version), ("routing", .string s.routing),
    ("patterns", .record s.patterns), ("build_tool", .string s.buildTool),
    ("package_manager", .string s.packageManager)]

def TargetStack.toJson (t : TargetStack) : Json :=
  .record [("language", .string t.language), ("framework", .string t.framework),
    ("version", .string t.version), ("routing", .string t.routing),
    ("file_structure", t.fileStructure.toJson),
    ("component_conventions", t.componentConventions.toJson),
    ("syntax_mappings", t.syntaxMappings.ofStrings), ("api_mappings", t.apiMappings.ofStrings),
    ("lifecycle_mappings", t.lifecycleMappings.ofStrings), ("build_tool", .string t.buildTool),
    ("package_manager", .string t.packageManager)]

def SymbolMappings.toJson (m : SymbolMappings) : Json :=
  .record [("imports", m.imports.ofStrings), ("routing", m.routing.ofStrings),
    ("components", m.components.ofStrings), ("styling", .record m.styling),
    ("state_management", .record m.stateManagement), ("build_system", .record m.buildSystem)]

def BreakingChange.toJson (b : BreakingChange) : Json :=
  .record [("id", .string b.id), ("description", .string b.description),
    ("affected_apis", .strings b.affectedApis), ("migration_path", .string b.migrationPath),
    ("auto_fixable", .bool b.autoFixable)]

def Deprecation.toJson (d : Deprecation) : Json :=
  .record [("id", .string d.id), ("deprecated", .string d.deprecated),
    ("replacement", .string d.replacement), ("version", .string d.version),
    ("removal_version", .optional d.removalVersion)]

def MigrationRules.toJson (r : MigrationRules) : Json :=
  .record [("must_preserve", .strings r.mustPreserve), ("must_transform", .strings r.mustTransform),
    ("must_remove", .strings r.mustRemove), ("must_refactor", .strings r.mustRefactor),
    ("breaking_changes", .list (r.breakingChanges.map (·.toJson))),
    ("deprecations", .list (r.deprecations.map (·.toJson)))]

def SpecMetadata.toJson (m : SpecMetadata) : Json :=
  .record [("version", .string m.version), ("generated_at", .string m.generatedAt),
    ("estimated_complexity", .string m.estimatedComplexity),
    ("estimated_duration", .string m.estimatedDuration)]

def Specification.toJson (s : Specification) : Json :=
  .record [("source", s.source.toJson), ("target", s.target.toJson),
    ("mappings", s.mappings.toJson), ("rules", s.rules.toJson), ("metadata", s.metadata.toJson)]

end WebMigration
