import WebMigration.Framework.Profile
import WebMigration.Module.Reference
import WebMigration.Text.Pattern

/-!
# What is left of the source framework

Imports that should not be in a rewritten file, because they belong to the framework that it came from
or are foreign to the one it goes to; and texts that show a use of the old framework.
-/

namespace WebMigration.Validation

open Text
open WebMigration.Module (Reference)

/-- Whether a module name starts with one of some texts. -/
def startsWithAny (starts : List String) (name : String) : Bool := starts.any fun s => startsWith s name

/-- Whether a module name stands for a file of the repository itself. -/
def isOwn (target : FrameworkProfile) (name : String) : Bool :=
  startsWith "." name || startsWithAny ("@/" :: target.pathAliases.map (·.2)) name

/-- Whether the target accepts a module. -/
def isAccepted (target : FrameworkProfile) (name : String) : Bool :=
  isOwn target name || target.validImports.isEmpty || startsWithAny target.validImports name

/-- What is wrong with the import of a module. -/
def moduleProblems (source target : FrameworkProfile) (name : String) : List String :=
  (if startsWithAny source.legacyPackages name then
    [name ++ " (old framework import not transformed)"] else []) ++
  (if isAccepted target name then [] else [name ++ " (invalid for target framework)"])

/-- Whether a reference stands at the top of a file, where it always takes effect. -/
def isDeclared (r : Reference) : Bool := r.kind == .static || r.kind == .reexport

/-- What is wrong with the imports and re-exports of a file. -/
def importProblems (source target : FrameworkProfile) (references : List Reference) : List String :=
  (references.filter isDeclared).flatMap fun r => moduleProblems source target r.source

/-- How often a pattern of the old framework occurs, if it does. -/
def patternUse? (code pattern : String) : Option String :=
  match (Pattern.read? pattern).map (·.count code) with
  | some (n + 1) => some (pattern ++ " (found " ++ toString (n + 1) ++ " occurrence(s))")
  | _ => none

/-- What is left of the old framework, and of what a specification removes. -/
def oldReferences (source : FrameworkProfile) (mustRemove : List String) (code : String) :
    List String :=
  source.referencePatterns.filterMap (patternUse? code) ++
    (mustRemove.filter fun item => !item.isEmpty && contains item code).map
      (· ++ " (should have been removed)")

end WebMigration.Validation
