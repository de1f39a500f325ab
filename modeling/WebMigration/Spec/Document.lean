import WebMigration.Spec.Basic
import WebMigration.Json.Decoder
import WebMigration.Yaml.Document

/-!
# Specification documents

Reading specifications.  Every field may be spelled with underscores or in camel case, and the camel
case counts where both occur.  A document that gives rules must give all six lists of them.  In a
file, an empty document stands for a specification in which nothing is given.
-/

namespace WebMigration

open Decoder

namespace FileStructure

def decode : Decoder FileStructure :=
  let base : FileStructure := {}
  model (FileStructure.mk
    <$> field ["pages"] base.pages text
    <*> field ["components"] base.components text
    <*> field ["layouts"] base.layouts text
    <*> field ["api"] base.api text)

end FileStructure

namespace ComponentConventions

def decode : Decoder ComponentConventions :=
  let base : ComponentConventions := {}
  model (ComponentConventions.mk
    <$> field ["fileExtension", "file_extension"] base.fileExtension text
    <*> field ["namingConvention", "naming_convention"] base.namingConvention text
    <*> field ["exportStyle", "export_style"] base.exportStyle text
    <*> field ["serverComponents", "server_components"] base.serverComponents boolean)

end ComponentConventions

namespace SourceStack

def decode : Decoder SourceStack :=
  let base : SourceStack := {}
  model (SourceStack.mk
    <$> field ["language"] base.language text
    <*> field ["framework"] base.framework text
    <*> field ["version"] base.version text
    <*> field ["routing"] base.routing text
    <*> field ["patterns"] base.patterns (table anything)
    <*> field ["buildTool", "build_tool"] base.buildTool text
    <*> field ["packageManager", "package_manager"] base.packageManager text)

end SourceStack

namespace TargetStack

def decode : Decoder TargetStack :=
  let base : TargetStack := {}
  model (TargetStack.mk
    <$> field ["language"] base.language text
    <*> field ["framework"] base.framework text
    <*> field ["version"] base.version text
    <*> field ["routing"] base.routing text
    <*> field ["fileStructure", "file_structure"] base.fileStructure FileStructure.decode
    <*> field ["componentConventions", "component_conventions"] base.componentConventions ComponentConventions.decode
    <*> field ["syntaxMappings", "syntax_mappings"] base.syntaxMappings (table text)
    <*> field ["apiMappings", "api_mappings"] base.apiMappings (table text)
    <*> field ["lifecycleMappings", "lifecycle_mappings"] base.lifecycleMappings (table text)
    <*> field ["buildTool", "build_tool"] base.buildTool text
    <*> field ["packageManager", "package_manager"] base.packageManager text)

end TargetStack

namespace SymbolMappings

def decode : Decoder SymbolMappings :=
  model (SymbolMappings.mk
    <$> field ["imports"] [] (table text)
    <*> field ["routing"] [] (table text)
    <*> field ["components"] [] (table text)
    <*> field ["styling"] [] (table anything)
    <*> field ["stateManagement", "state_management"] [] (table anything)
    <*> field ["buildSystem", "build_system"] [] (table anything))

end SymbolMappings

namespace BreakingChange

def decode : Decoder BreakingChange :=
  model (BreakingChange.mk
    <$> required ["id"] text
    <*> field ["description"] "" text
    <*> field ["affectedAPIs", "affected_apis"] [] (list text)
    <*> field ["migrationPath", "migration_path"] "" text
    <*> field ["autoFixable", "auto_fixable"] false boolean)

end BreakingChange

namespace Deprecation

def decode : Decoder Deprecation :=
  model (Deprecation.mk
    <$> required ["id"] text
    <*> required ["deprecated"] text
    <*> field ["replacement"] "" text
    <*> field ["version"] "" text
    <*> field ["removalVersion", "removal_version"] none optionalText)

end Deprecation

namespace MigrationRules

/-- The spellings of the six lists of rules. -/
def spellings : List (String × String) :=
  [("mustPreserve", "must_preserve"), ("mustTransform", "must_transform"),
    ("mustRemove", "must_remove"), ("mustRefactor", "must_refactor"),
    ("breakingChanges", "breaking_changes"), ("deprecations", "deprecations")]

def decode : Decoder MigrationRules :=
  model (MigrationRules.mk
    <$> field ["mustPreserve", "must_preserve"] [] (list text)
    <*> field ["mustTransform", "must_transform"] [] (list text)
    <*> field ["mustRemove", "must_remove"] [] (list text)
    <*> field ["mustRefactor", "must_refactor"] [] (list text)
    <*> field ["breakingChanges", "breaking_changes"] [] (list BreakingChange.decode)
    <*> field ["deprecations"] [] (list Deprecation.decode))

/-- The first list of rules that is missing or no list makes the rules malformed. -/
def checkShape (rules : Json) : Except Failure Unit :=
  match rules with
  | .record fields =>
      match spellings.find? fun s => !isList (value fields s) with
      | some s => .error (.ruleSet ("Invalid rules: " ++ s.1 ++ " must be an array"))
      | none => .ok ()
  | _ => .error (.ruleSet "Invalid rules: rules must be an object")
where
  value (fields : List (String × Json)) (s : String × String) : Option Json :=
    Json.lookup? fields s.1 <|> Json.lookup? fields s.2
  isList : Option Json → Bool
    | some (.list _) => true
    | _ => false

end MigrationRules

namespace SpecMetadata

def decode : Decoder SpecMetadata :=
  let base : SpecMetadata := {}
  model (SpecMetadata.mk
    <$> field ["version"] base.version text
    <*> field ["generatedAt", "generated_at"] base.generatedAt text
    <*> field ["estimatedComplexity", "estimated_complexity"] base.estimatedComplexity text
    <*> field ["estimatedDuration", "estimated_duration"] base.estimatedDuration text)

end SpecMetadata

namespace Specification

def decode : Decoder Specification :=
  model (Specification.mk
    <$> field ["source"] {} SourceStack.decode
    <*> field ["target"] {} TargetStack.decode
    <*> field ["mappings"] {} SymbolMappings.decode
    <*> field ["rules"] {} MigrationRules.decode
    <*> field ["metadata"] {} SpecMetadata.decode)

/-- The failure for a document with problems. -/
def invalid (problems : List Problem) : Failure :=
  .validation "Invalid migration specification" none problems

/-- Reads a specification.  Malformed rules are reported before anything else. -/
def ofDocument (document : Json) : Except Failure Specification :=
  match document with
  | .record fields => do
      match Json.lookup? fields "rules" with
      | some rules => MigrationRules.checkShape rules
      | none => pure ()
      match decode document with
      | .ok spec => return spec
      | .error problems => throw (invalid problems)
  | _ => .error (.validation "Migration specification must be a mapping" none [])

end Specification

end WebMigration

namespace WebMigration.Specification

/-- Reads a specification from the text of a file. -/
def ofText (text : String) : Except Fault Specification := do
  let document ← Yaml.read text
  match ofDocument (if document.isTruthy then document else .record []) with
  | .ok spec => return spec
  | .error failure => throw (.failure failure)

end WebMigration.Specification
