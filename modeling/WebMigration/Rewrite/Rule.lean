import WebMigration.Module.Source
import WebMigration.Module.Context
import WebMigration.Rewrite.Edit

/-!
# Rewrite rules

A rule looks at a parsed file and answers with edits of its text and with notes for the audit trail,
or it fails.  Rules never change the tree that they look at; the file is parsed again after each rule.
-/

namespace WebMigration

open WebMigration.Module (Source)

/-- The phase in which a rule runs. -/
inductive RulePhase
  /-- Rules about the form of the code, which run first. -/
  | form
  /-- Rules about routing, which run second. -/
  | routing
  /-- A phase that never runs. -/
  | other (name : String)
  deriving DecidableEq, Repr

namespace RulePhase

def name : RulePhase → String
  | form => "syntax"
  | routing => "routing"
  | other name => name

def ofName (name : String) : RulePhase :=
  if name == "syntax" then form else if name == "routing" then routing else other name

end RulePhase

/-- What a rule looks at. -/
structure RuleView where
  source : Source
  spec : Specification
  context : FileContext

/-- What a rule answers with. -/
structure Rewriting where
  /-- Lines for the audit trail, which count even when the rule fails. -/
  notes : List String
  edits : Except Fault (List Edit)

/-- Edits with the notes about them. -/
def Rewriting.of (notes : List String) (edits : List Edit) : Rewriting := ⟨notes, .ok edits⟩

/-- A rewrite rule. -/
structure RewriteRule where
  name : String
  phase : RulePhase
  description : String
  rewrite : RuleView → Rewriting

namespace Rewrite

open Syntax

/-- The replacement of the text of a node. -/
def replacing (n : Node) (replacement : String) : Edit :=
  Edit.replacing n.start n.stop replacement

/-- Whether an import of the file binds a name. -/
def binds (s : Source) (name : String) : Bool :=
  s.references.any fun r => r.bindings.any (·.localName == name)

/-- Whether a node is the start of a markup element. -/
def isOpeningTag (n : Node) : Bool :=
  n.kind == .jsxOpeningElement || n.kind == .jsxSelfClosingElement

/-- The name of a markup tag; a fragment has none. -/
def tagName (s : Source) (tag : Node) : String := ((tag.child? .name).map s.nodeText).getD ""

/-- The name of the function that a call names directly. -/
def calledName? (s : Source) (n : Node) : Option (Node × String) :=
  if n.kind == .callExpression then
    ((n.child? .function).filter (·.kind == .identifier)).map fun f => (f, s.nodeText f)
  else none

/-- The name that an import specifier without an alias imports. -/
def plainlyImported? (s : Source) (n : Node) : Option (Node × String) :=
  if n.kind == .importSpecifier && (n.child? .alias).isNone then
    (n.child? .name).map fun name => (name, s.nodeText name)
  else none

end Rewrite

end WebMigration
