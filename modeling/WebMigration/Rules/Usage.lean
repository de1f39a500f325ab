import WebMigration.Module.Source

/-!
# Uses of names

Where a file uses a name, found in two ways: in its syntax tree, as what is called, referred to or
imported, and in its text, as a whole word.
-/

namespace WebMigration

open Syntax
open WebMigration.Module (Source)

/-- A line and a column, both counted from 1. -/
structure Place where
  line : Nat
  column : Nat
  deriving DecidableEq, Repr

namespace Usage

/-! ## In the tree -/

/-- The place where a node starts. -/
def placeOf (s : Source) (n : Node) : Place :=
  let p := s.point n
  ⟨p.line + 1, p.column + 1⟩

/-- Whether a name below a node of this kind is declared there and not used. -/
def declares (kind : Kind) : Bool :=
  match kind with
  | .functionDeclaration | .generatorFunctionDeclaration | .classDeclaration | .methodDefinition
  | .formalParameters | .importSpecifier | .importClause | .namespaceImport => true
  | _ => false

/-- Whether an identifier below a parent is a use of a name.  What a call names is found with the
call. -/
def isUse (n : Node) (parent : Option Node) : Bool :=
  match parent with
  | none => false
  | some p =>
      if p.kind == .callExpression then false
      else if p.kind == .variableDeclarator then n.field != some .name
      else !declares p.kind

/-- The node whose text is a use of a name at a place of the tree, if there is one. -/
def usedNode? (v : Node.Visit) : Option Node :=
  match v.node.kind with
  | .callExpression =>
      (v.node.child? .function).filter fun f => f.kind == .identifier || f.kind == .memberExpression
  | .identifier | .typeIdentifier => if isUse v.node v.parent then some v.node else none
  | _ => none

/-- The uses of names in a tree, each with its place, and then the imported modules. -/
def inTree (s : Source) : List (String × Place) :=
  (s.root.visits.filterMap usedNode?).map (fun n => (s.nodeText n, placeOf s n)) ++
    s.references.map fun r => (r.source, ⟨r.line, r.column + 1⟩)

/-! ## In the text -/

/-- Whether a character continues a name. -/
def continuesName (c : Char) : Bool := Text.isWord c || c == '$'

/-- Whether a word starts here and ends with the word. -/
def isWholeWord (word : List Char) (before : Option Char) (rest : List Char) : Bool :=
  word.isPrefixOf rest && !(before.map continuesName).getD false &&
    !((rest.drop word.length).head?.map continuesName).getD false

/-- The columns at which a word occurs in the rest of a line, after a character and from a column on;
`skip` characters belong to the occurrence before. -/
def columnsFrom (word : List Char) (skip : Nat) (before : Option Char) (column : Nat) :
    List Char → List Nat
  | [] => if skip == 0 && isWholeWord word before [] then [column] else []
  | c :: rest =>
      match skip with
      | skip + 1 => columnsFrom word skip (some c) (column + 1) rest
      | 0 =>
          if isWholeWord word before (c :: rest) then
            column :: columnsFrom word (word.length - 1) (some c) (column + 1) rest
          else columnsFrom word 0 (some c) (column + 1) rest

/-- The places where a word occurs in numbered lines. -/
def inLines (word : List Char) : Nat → List String → List Place
  | _, [] => []
  | number, line :: rest =>
      (columnsFrom word 0 none 1 line.toList).map (⟨number, ·⟩) ++ inLines word (number + 1) rest

/-- The places where a name occurs as a whole word. -/
def inText (code name : String) : List Place := inLines name.toList 1 (Text.lines code)

/-- All places where a name is used: those in the tree and then the other ones in the text. -/
def places (code : String) (uses : List (String × Place)) (name : String) : List Place :=
  let found := (uses.filter (·.1 == name)).map (·.2)
  found ++ (inText code name).filter fun p => !found.contains p

end Usage

end WebMigration
