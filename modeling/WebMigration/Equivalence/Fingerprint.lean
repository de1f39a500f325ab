import WebMigration.Module.Source
import WebMigration.Failure.Basic

/-!
# Structural fingerprints

How many functions, branches, loops, returns and markup elements a file has, and what it calls.
-/

namespace WebMigration

open Syntax
open WebMigration.Module (Salvage Source)

/-- The structure of a file in numbers. -/
structure Fingerprint where
  /-- The names of the functions. -/
  functions : List String := []
  conditionals : Nat := 0
  loops : Nat := 0
  returns : Nat := 0
  /-- What is called. -/
  calls : List String := []
  elements : Nat := 0
  deriving DecidableEq, Repr

namespace Fingerprint

def toJson (f : Fingerprint) : Json :=
  .record [("functions", .strings f.functions), ("conditionals", .ofNat f.conditionals),
    ("loops", .ofNat f.loops), ("returns", .ofNat f.returns), ("calls", .strings f.calls),
    ("ui_elements", .ofNat f.elements)]

/-- Whether a node is a function. -/
def isFunction (n : Node) : Bool :=
  match n.kind with
  | .functionDeclaration | .generatorFunctionDeclaration | .methodDefinition | .functionExpression
  | .generatorFunction | .arrowFunction => true
  | _ => false

def isConditional (n : Node) : Bool :=
  match n.kind with
  | .ifStatement | .ternaryExpression | .switchStatement => true
  | _ => false

def isLoop (n : Node) : Bool :=
  match n.kind with
  | .forStatement | .forInStatement | .whileStatement | .doStatement => true
  | _ => false

def isReturn (n : Node) : Bool := n.kind == .returnStatement

/-- Whether a node is a markup element. -/
def isElement (n : Node) : Bool :=
  match n.kind with
  | .jsxElement | .jsxSelfClosingElement => true
  | _ => false

/-- The name of a function. -/
def functionName (s : Source) (n : Node) : String :=
  if n.kind == .arrowFunction then "(arrow)"
  else ((n.child? .name).map s.nodeText).getD "(anonymous)"

/-- What a call calls. -/
def calledText? (s : Source) (n : Node) : Option String :=
  if n.kind == .callExpression then (n.child? .function).map s.nodeText else none

/-- The structure of a parsed file. -/
def ofSource (s : Source) : Fingerprint :=
  let nodes := s.root.walk
  { functions := (nodes.filter isFunction).map (functionName s)
    conditionals := nodes.countP isConditional
    loops := nodes.countP isLoop
    returns := nodes.countP isReturn
    calls := nodes.filterMap (calledText? s)
    elements := nodes.countP isElement }

/-- The structure of a file, which must parse. -/
def ofCode [Salvage] (code path : String) (language : Option String) :
    Except Fault Fingerprint :=
  let s := Source.parse code path language
  if s.hasError then .error (.value s.firstError) else .ok (ofSource s)

end Fingerprint

end WebMigration
