import WebMigration.Rules.Violation
import WebMigration.Rules.Usage
import WebMigration.Lane.Registry
import WebMigration.Spec.Document

/-!
# Validation by rules

Checking a file against the rules of a specification: what must be kept gives warnings, what should
have been transformed or removed gives findings, and so does every use of a name that a breaking
change or a deprecation affects.
-/

namespace WebMigration

open Syntax
open WebMigration.Module (Source Reference)

/-- The rules of a specification with the profile of the framework that files come from. -/
structure RuleSet where
  rules : MigrationRules := {}
  profile : FrameworkProfile := .unknown
  language : Option String := none

/-- What the rules say about a file. -/
structure RuleVerdict where
  valid : Bool
  violations : List Violation := []
  warnings : List String := []
  deriving DecidableEq, Repr

def RuleVerdict.fields (v : RuleVerdict) : List (String × Json) :=
  [("valid", .bool v.valid), ("violations", .list (v.violations.map (·.toJson))),
    ("warnings", .strings v.warnings)]

namespace RuleSet

def toJson (r : RuleSet) : Json :=
  .record [("rules", r.rules.toJson), ("profile", .string r.profile.name),
    ("language", .optional r.language)]

/-- The rules of a specification. -/
def ofSpec (lanes : LaneRegistry) (spec : Specification) : RuleSet :=
  ⟨spec.rules, lanes.profile spec.source.framework, some spec.source.language⟩

/-- The rules of a document, which must hold rules. -/
def ofDocument (lanes : LaneRegistry) (document : Json) : Except Failure RuleSet := do
  MigrationRules.checkShape ((document.field? "rules").getD .null)
  return ofSpec lanes (← Specification.ofDocument document)

/-! ## What to look for -/

/-- The lower-case text of some rules. -/
def textOf (rules : List String) : String := Text.lower (Text.join " " rules)

/-- Whether rules mention one of some words. -/
def mention (rules words : List String) : Bool :=
  words.any fun w => Text.contains w (textOf rules)

/-- The starts of module names that a rule about removal can name. -/
def removalKeywords : List String :=
  ["react-router", "react-helmet", "redux", "webpack", "babel", "jquery", "enzyme", "moment"]

/-- Whether a node is or belongs to a function. -/
def marksFunction (n : Node) : Bool :=
  match n.kind with
  | .functionDeclaration | .generatorFunctionDeclaration | .functionExpression | .arrowFunction
  | .methodDefinition => true
  | .token text => text == "function"
  | _ => false

/-- Warnings about what must be kept. -/
def preservation (s : Source) (rules : MigrationRules) : List String :=
  let nodes := s.root.walk
  (if mention rules.mustPreserve ["business logic"] && nodes.any marksFunction then
    ["Business logic detected - ensure behavior is preserved after transformation"] else []) ++
  (if mention rules.mustPreserve ["error handling"] && nodes.any (·.kind == .tryStatement) then
    ["Error handling detected - verify error handling logic is preserved"] else [])

/-- A finding about an import that should have been transformed. -/
def untransformedImport (path : String) (r : Reference) : Violation where
  id := "untransformed-import-" ++ r.source
  kind := "incompatibility"
  severity := "error"
  line := r.line
  column := r.column + 1
  message := "Import from '" ++ r.source ++ "' must be transformed for the target framework"
  suggestion := "Replace with the equivalent target framework import"
  autoFixable := true
  filePath := some path

/-- A finding about a routing component that should have been transformed. -/
def untransformedRouting (path name : String) (place : Place) : Violation where
  id := "untransformed-routing-" ++ name
  kind := "incompatibility"
  severity := "error"
  line := place.line
  column := place.column
  message := "Routing component <" ++ name ++ "> must be migrated"
  suggestion := "Use the target framework's file-based routing"
  filePath := some path

/-- The routing components of a file. -/
def routingFindings (s : Source) (legacy : List String) (path : String) : List Violation :=
  (s.root.walk.filter Rewrite.isOpeningTag).filterMap fun n =>
    let name := Rewrite.tagName s n
    if legacy.contains name then some (untransformedRouting path name (Usage.placeOf s n)) else none

/-- Findings about what should have been transformed. -/
def transformation (s : Source) (rules : MigrationRules) (profile : FrameworkProfile)
    (path : String) : List Violation :=
  (if mention rules.mustTransform ["import"] then
    (s.references.filter fun r => profile.legacyPackages.any fun p => Text.startsWith p r.source).map
      (untransformedImport path)
  else []) ++
  (if mention rules.mustTransform ["routing", "route"] then
    routingFindings s profile.legacyComponents path else [])

/-- A finding about an import that should have been removed. -/
def unremovedImport (path : String) (r : Reference) : Violation where
  id := "should-remove-" ++ r.source
  kind := "incompatibility"
  severity := "warning"
  line := r.line
  column := r.column + 1
  message := "Import from '" ++ r.source ++ "' should be removed"
  suggestion := "Remove '" ++ r.source ++ "' and its usages"
  autoFixable := true
  filePath := some path

/-- Findings about what should have been removed. -/
def removal (s : Source) (rules : MigrationRules) (path : String) : List Violation :=
  let named := removalKeywords.filter fun k => Text.contains k (textOf rules.mustRemove)
  (s.references.filter fun r => named.any fun k => Text.startsWith k r.source).map
    (unremovedImport path)

/-- A finding about a use of a name that a change breaks. -/
def breakage (path : String) (c : BreakingChange) (place : Place) : Violation where
  id := c.id
  kind := "breaking-change"
  severity := "error"
  line := place.line
  column := place.column
  message := "Breaking change: " ++ c.description
  suggestion := c.migrationPath
  autoFixable := c.autoFixable
  filePath := some path

/-- A finding about a use of a deprecated name. -/
def deprecatedUse (path : String) (d : Deprecation) (place : Place) : Violation where
  id := d.id
  kind := "deprecation"
  severity := "warning"
  line := place.line
  column := place.column
  message := "Deprecated: '" ++ d.deprecated ++ "' is deprecated in version " ++ d.version
  suggestion := "Replace with '" ++ d.replacement ++ "'" ++
    (match d.removalVersion with
      | some v => if v.isEmpty then "" else " (will be removed in " ++ v ++ ")"
      | none => "")
  autoFixable := !d.replacement.isEmpty
  filePath := some path

/-- Findings about uses of names that breaking changes affect. -/
def breakages (code path : String) (uses : List (String × Place)) (changes : List BreakingChange) :
    List Violation :=
  changes.flatMap fun c =>
    c.affectedApis.flatMap fun name => (Usage.places code uses name).map (breakage path c)

/-- Findings about uses of deprecated names. -/
def deprecatedUses (code path : String) (uses : List (String × Place))
    (deprecations : List Deprecation) : List Violation :=
  deprecations.flatMap fun d => (Usage.places code uses d.deprecated).map (deprecatedUse path d)

/-! ## The verdict -/

/-- All findings about a parsed file, in the order of the checks. -/
def findings (r : RuleSet) (s : Source) (code path : String) : List Violation :=
  let uses := if r.rules.breakingChanges.isEmpty && r.rules.deprecations.isEmpty then []
    else Usage.inTree s
  transformation s r.rules r.profile path ++ removal s r.rules path ++
    breakages code path uses r.rules.breakingChanges ++
    deprecatedUses code path uses r.rules.deprecations

/-- The finding about a file that does not parse. -/
def syntaxFinding (message path : String) : Violation where
  id := "syntax-error"
  kind := "incompatibility"
  severity := "error"
  line := 1
  column := 1
  message := "Syntax error: " ++ message
  suggestion := "Fix syntax errors before migration"
  filePath := some path

/-- The verdict on a parsed file. -/
def judge (r : RuleSet) (s : Source) (code path : String) : RuleVerdict :=
  if s.hasError then ⟨false, [syntaxFinding s.firstError path], []⟩
  else
    let violations := Violation.distinct (r.findings s code path)
    ⟨!violations.any (·.isError), violations, preservation s r.rules⟩

/-- Checks a file. -/
def validate [Module.Salvage] (r : RuleSet) (code path : String) : RuleVerdict :=
  r.judge (Source.parse code path r.language) code path

end RuleSet

end WebMigration
