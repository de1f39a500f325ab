import WebMigration.Json.Value
import WebMigration.Syntax.Grammar.Statement
import WebMigration.Text.Utf8
import WebMigration.Text.Basic

/-!
# References between modules

The places where a file names another module: import statements, exports from elsewhere, dynamic
imports and calls of `require`; and the names that a file exports.  Both are read off the syntax
tree.
-/

namespace WebMigration.Module

open Syntax

/-- How a binding takes part in an import. -/
inductive BindingKind
  | default | star | named
  deriving DecidableEq, Repr

def BindingKind.name : BindingKind → String
  | default => "default"
  | star => "namespace"
  | named => "named"

/-- One binding of an import. -/
structure Binding where
  kind : BindingKind
  /-- The name in this file. -/
  localName : String
  /-- The name in the other module, for named imports. -/
  imported : Option String
  deriving DecidableEq, Repr

/-- The identity of a binding. -/
def Binding.key (b : Binding) : String :=
  match b.kind with
  | .named =>
      let imported := match b.imported with
        | some n => if n.isEmpty then b.localName else n
        | none => b.localName
      "named:" ++ imported ++ ":" ++ b.localName
  | kind => kind.name ++ ":" ++ b.localName

/-- How a file refers to another module. -/
inductive ReferenceKind
  | static | reexport | dynamic | require
  deriving DecidableEq, Repr

def ReferenceKind.name : ReferenceKind → String
  | static => "static"
  | reexport => "reexport"
  | dynamic => "dynamic"
  | require => "require"

/-- A place where a file names another module. -/
structure Reference where
  source : String
  kind : ReferenceKind
  /-- The line, counted from 1. -/
  line : Nat
  /-- The offset in the line. -/
  column : Nat
  span : Span
  /-- The range of the module's name without its quotes. -/
  sourceSpan : Span
  bindings : List Binding
  text : String
  deriving DecidableEq, Repr

/-- The name of the module with its bindings in any order. -/
def Reference.dedupeKey (r : Reference) : String :=
  r.source ++ "::" ++ Text.join "," ((r.bindings.map (·.key)).mergeSort (fun a b => !(b < a)))

def Binding.toJson (b : Binding) : Json :=
  .record [("kind", .string b.kind.name), ("local", .string b.localName),
    ("imported", .optional b.imported), ("key", .string b.key)]

def Reference.toJson (r : Reference) : Json :=
  .record [("source", .string r.source), ("kind", .string r.kind.name), ("line", .ofNat r.line),
    ("column", .ofNat r.column), ("start_byte", .ofNat r.span.start),
    ("end_byte", .ofNat r.span.stop), ("source_start_byte", .ofNat r.sourceSpan.start),
    ("source_end_byte", .ofNat r.sourceSpan.stop), ("text", .string r.text),
    ("dedupe_key", .string r.dedupeKey), ("specifiers", .list (r.bindings.map (·.toJson)))]

/-- The bytes of a file, for the texts of its nodes. -/
structure Content where
  bytes : ByteArray
  list : List UInt8

namespace Content

def ofString (s : String) : Content := ⟨s.toUTF8, s.toUTF8.toList⟩

/-- The text that a node covers. -/
def text (c : Content) (n : Node) : String := Text.between c.bytes n.start n.stop

/-- The place where a node starts. -/
def point (c : Content) (n : Node) : Text.Point := Text.pointAt c.list n.start

end Content

/-- The inside of a string literal. -/
def stringInside? (n : Node) : Option Span :=
  if n.kind == .string && 2 ≤ n.stop - n.start then some ⟨n.start + 1, n.stop - 1⟩ else none

/-- A reference by a node whose module is named by a string literal. -/
def Reference.of? (c : Content) (n literal : Node) (kind : ReferenceKind)
    (bindings : List Binding) : Option Reference := do
  let inside ← stringInside? literal
  let place := c.point n
  return ⟨Text.between c.bytes inside.start inside.stop, kind, place.line + 1, place.column,
    n.span, inside, bindings, c.text n⟩

/-- A named binding from the name and the alias of a specifier. -/
def namedBinding? (c : Content) (n : Node) : Option Binding :=
  (n.child? .name).map fun name =>
    let imported := c.text name
    ⟨.named, ((n.child? .alias).map c.text).getD imported, some imported⟩

/-- The bindings of the specifiers of a kind among the children of a node. -/
def namedBindings (c : Content) (specifier : Kind) (n : Node) : List Binding :=
  (n.namedChildren.filter (·.kind == specifier)).filterMap (namedBinding? c)

/-- The bindings of an import clause. -/
def clauseBindings (c : Content) (clause : Node) : List Binding :=
  clause.namedChildren.flatMap fun n =>
    match n.kind with
    | .identifier => [⟨.default, c.text n, none⟩]
    | .namespaceImport =>
        match n.childOfKind? .identifier with
        | some name => [⟨.star, c.text name, none⟩]
        | none => []
    | .namedImports => namedBindings c .importSpecifier n
    | _ => []

/-- The reference of an import statement. -/
def staticReference? (c : Content) (n : Node) : Option Reference := do
  let literal ← n.child? .source
  let clauses := n.namedChildren.filter (·.kind == .importClause)
  Reference.of? c n literal .static (clauses.flatMap (clauseBindings c))

/-- The reference of an export from another module. -/
def reexportReference? (c : Content) (n : Node) : Option Reference := do
  let literal ← n.child? .source
  let bindings := n.namedChildren.flatMap fun part =>
    match part.kind with
    | .exportClause => namedBindings c .exportSpecifier part
    | .namespaceExport =>
        [⟨.star, ((part.childOfKind? .identifier).map c.text).getD "*", none⟩]
    | _ => []
  Reference.of? c n literal .reexport bindings

/-- The reference of a call that loads a module. -/
def callReference? (c : Content) (n : Node) : Option Reference := do
  let callee ← n.child? .function
  let kind ←
    if callee.kind == .importKeyword then some ReferenceKind.dynamic
    else if callee.kind == .identifier && c.text callee == "require" then some .require
    else none
  let first ← (← n.child? .arguments).namedChildren.head?
  if first.kind == .string then Reference.of? c n first kind [] else none

/-- The reference that a node is, if it is one. -/
def reference? (c : Content) (n : Node) : Option Reference :=
  match n.kind with
  | .importStatement => staticReference? c n
  | .exportStatement => reexportReference? c n
  | .callExpression => callReference? c n
  | _ => none

/-- All references of a tree in source order. -/
def references (c : Content) (root : Node) : List Reference :=
  root.walk.filterMap (reference? c)

/-- The names that a declaration declares. -/
def declaredNames (c : Content) (declaration : Node) : List String :=
  if declaration.kind == .lexicalDeclaration || declaration.kind == .variableDeclaration then
    (declaration.namedChildren.filter (·.kind == .variableDeclarator)).filterMap fun d =>
      ((d.child? .name).filter (·.kind == .identifier)).map c.text
  else ((declaration.child? .name).map c.text).toList

/-- The names that one export statement exports. -/
def exportedNames (c : Content) (n : Node) : List String :=
  if n.children.any (·.kind == .token "default") then ["default"]
  else
    match n.child? .declaration with
    | some declaration => declaredNames c declaration
    | none =>
        (n.namedChildren.filter (·.kind == .exportClause)).flatMap fun clause =>
          (clause.namedChildren.filter (·.kind == .exportSpecifier)).filterMap fun s =>
            (s.child? .alias <|> s.child? .name).map c.text

/-- The names that a file exports. -/
def exports (c : Content) (root : Node) : List String :=
  (root.children.filter (·.kind == .exportStatement)).flatMap (exportedNames c)

end WebMigration.Module
