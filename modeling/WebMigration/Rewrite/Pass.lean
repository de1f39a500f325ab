import WebMigration.Rewrite.Import
import WebMigration.Rewrite.Rename
import WebMigration.Lane.Registry

/-!
# The deterministic pass

Rewriting one file step by step, parsing it again after each step: imports are renamed, repeated
imports removed, then the rules of the lane and those of the specification apply.  A result that does
not parse is dropped, and the pass answers with the code that it was given and the reason.
-/

namespace WebMigration.Rewrite

open WebMigration.Module (Salvage Source)

/-- What the pass answers with. -/
structure PassResult where
  code : String
  /-- Why the code was kept, if it was. -/
  errors : List String := []
  deriving DecidableEq, Repr

/-- The failure that stands for an error of a rule. -/
def ruleFailure (rule : RewriteRule) (path : String) (fault : Fault) : Fault :=
  match fault with
  | .failure f => .failure f
  | .foreign .. =>
      .failure (.transformation ("Rewrite rule '" ++ rule.name ++ "' failed: " ++ fault.message)
        (some path) none none [])

/-- Applies one rule to some code. -/
def applyRule [Salvage] (rule : RewriteRule) (spec : Specification) (code : String)
    (context : FileContext) : Except Fault String × FileContext :=
  let source := Source.parse code context.path (some spec.source.language)
  let answer := rule.rewrite ⟨source, spec, context⟩
  let noted := context.note answer.notes
  match answer.edits with
  | .error fault => (.error (ruleFailure rule context.path fault), noted)
  | .ok [] => (.ok code, noted)
  | .ok edits => (Edit.apply source.content.list edits, noted)

/-- Applies rules one after the other. -/
def applyRules [Salvage] (spec : Specification) : List RewriteRule → String → FileContext →
    Except Fault String × FileContext
  | [], code, context => (.ok code, context)
  | rule :: rest, code, context =>
      match applyRule rule spec code context with
      | (.ok code', context') => applyRules spec rest code' context'
      | (.error fault, context') => (.error fault, context')

/-- The rules for a specification in the order in which they apply. -/
def rulesOf (lanes : LaneRegistry) (spec : Specification) : List RewriteRule :=
  let rules := lanes.rulesFor spec.source.framework spec.target.framework
  rules.filter (·.phase == .form) ++ rules.filter (·.phase == .routing) ++ mappingRules spec

/-- Keeps the code if the rewritten one does not parse. -/
def accept [Salvage] (spec : Specification) (path original rewritten : String) : PassResult :=
  let final := Source.parse rewritten path (some spec.source.language)
  if final.hasError then ⟨original, ["AST validation failed: " ++ final.firstError]⟩ else ⟨rewritten, []⟩

/-- What all steps make of a parsed file. -/
def rewriteAll [Salvage] (lanes : LaneRegistry) (source : Source) (spec : Specification)
    (context : FileContext) : Except Fault String × FileContext :=
  match renameModules source spec.mappings.imports
      (lanes.profile spec.target.framework).pathAliases context with
  | (.error fault, context') => (.error fault, context')
  | (.ok renamed, context') =>
      match withoutRepeatedImports
          (Source.parse renamed context.path (some spec.source.language)) with
      | .error fault => (.error fault, context')
      | .ok thinned => applyRules spec (rulesOf lanes spec) thinned context'

/-- Rewrites a file.  The audit trail of the context tells what was done. -/
def pass [Salvage] (lanes : LaneRegistry) (code : String) (spec : Specification)
    (context : FileContext) : Except Fault PassResult × FileContext :=
  let source := Source.parse code context.path (some spec.source.language)
  if source.hasError then (.ok ⟨code, ["Parse failed: " ++ source.firstError]⟩, context)
  else
    match rewriteAll lanes source spec context with
    | (.error fault, context') => (.error fault, context')
    | (.ok rewritten, context') => (.ok (accept spec context.path code rewritten), context')

/-- The lines of the audit trail about imports. -/
def importChanges (context : FileContext) : List String :=
  context.imports.filter (Text.contains " -> ")

end WebMigration.Rewrite
