import WebMigration.Rewrite.Rename

/-!
# Rewrites towards the app router

Plain links become links of the router, the old names of its hooks and properties become the new
ones, and what has to be done by hand is noted.
-/

namespace WebMigration.Lane.AppRouter

open Syntax
open WebMigration.Module (Source)
open Rewrite

/-- The first property of a tag with a name, and the node of that name. -/
def property? (s : Source) (tag : Node) (name : String) : Option (Node × Node) :=
  tag.namedChildren.findSome? fun child =>
    if child.kind == .jsxAttribute then
      match child.namedChildren.head? with
      | some n => if s.nodeText n == name then some (child, n) else none
      | none => none
    else none

/-! ## Links -/

/-- Whether a tag is a plain link with an address. -/
def isPlainLink (s : Source) (tag : Node) : Bool :=
  isOpeningTag tag && tagName s tag == "a" &&
    (match property? s tag "href" with
      | some (property, _) => 2 ≤ property.namedChildren.length
      | none => false)

/-- The name of the closing tag that belongs to an opening tag below an element. -/
def closingName? (tag : Node) (parent : Option Node) : Option Node :=
  if tag.kind == .jsxOpeningElement then do
    let close ← (← parent).child? .closeTag
    close.child? .name
  else none

/-- The edits that make a plain link a link of the router, at both of its tags. -/
def linkEdits (s : Source) (v : Node.Visit) : List Edit :=
  if isPlainLink s v.node then
    match v.node.child? .name with
    | some name =>
        replacing name "Link" ::
          ((closingName? v.node v.parent).map (replacing · "Link")).toList
    | none => []
  else []

/-- The end of the first directive of a file, which is an expression that is a string. -/
def directiveEnd? (nodes : List Node) : Option Nat :=
  (nodes.find? fun n => n.kind == .expressionStatement &&
    (n.namedChildren.head?.map (·.kind == .string)).getD false).map (·.stop)

/-- The edit that adds an import line: after the last import, or else after the first directive, or
else at the start. -/
def insertImport (root : Node) (line : String) : Edit :=
  let nodes := root.namedChildren
  match (nodes.filter (·.kind == .importStatement)).getLast? with
  | some last => Edit.replacing last.stop last.stop ("\n" ++ line)
  | none =>
      match directiveEnd? nodes with
      | some offset => Edit.replacing offset offset ("\n" ++ line)
      | none => Edit.replacing 0 0 (line ++ "\n")

/-- The edits that turn plain links into links of the router, with its import where none binds the
name yet. -/
def anchorEdits (s : Source) : List Edit :=
  let edits := s.root.visits.flatMap (linkEdits s)
  if edits.isEmpty || binds s "Link" then edits
  else edits ++ [insertImport s.root "import Link from \"next/link\";"]

def anchorRule : RewriteRule where
  name := "anchor_to_link"
  phase := .form
  description := "Plain <a href> navigation becomes next/link <Link>"
  rewrite v :=
    let edits := anchorEdits v.source
    .of (noteOf edits "Converted <a href> elements to Next.js <Link>") edits

/-- The edit that gives a link of the router the new name of its address. -/
def addressEdit? (s : Source) (tag : Node) : Option Edit :=
  if isOpeningTag tag && tagName s tag == "Link" then
    (property? s tag "to").map fun (_, name) => replacing name "href"
  else none

/-- The edits that give links of the router the new name of their address. -/
def addressEdits (s : Source) : List Edit := s.root.walk.filterMap (addressEdit? s)

def addressRule : RewriteRule where
  name := "link_to_href"
  phase := .routing
  description := "react-router <Link to> becomes <Link href>"
  rewrite v :=
    let edits := addressEdits v.source
    .of (edits.map fun _ => "Updated Link component to Next.js format") edits

/-! ## Navigation -/

/-- The note about a component that has to be rewritten by hand. -/
def handWork : String := "Navigate component requires manual migration to useRouter"

/-- Notes every component that navigates, which has to be rewritten by hand. -/
def navigateRule : RewriteRule where
  name := "navigate_component_note"
  phase := .routing
  description := "Flag <Navigate> for manual migration"
  rewrite v :=
    let found := v.source.root.walk.filter fun n =>
      isOpeningTag n && tagName v.source n == "Navigate"
    .of (found.map fun _ => handWork) []

/-- The edit of a call of the old hook. -/
def hookCallEdit? (s : Source) (n : Node) : Option Edit :=
  match calledName? s n with
  | some (f, name) => if name == "useNavigate" then some (replacing f "useRouter") else none
  | none => none

/-- The edit of an import of the old hook. -/
def hookImportEdit? (s : Source) (n : Node) : Option Edit :=
  match plainlyImported? s n with
  | some (i, name) => if name == "useNavigate" then some (replacing i "useRouter") else none
  | none => none

/-- The edits of the calls of the old hook. -/
def hookCallEdits (s : Source) : List Edit := s.root.walk.filterMap (hookCallEdit? s)

/-- The edits that put the new hook in place of the old one: all calls, and where there are any, the
imports, unless one binds the new hook already. -/
def hookEdits (s : Source) : List Edit :=
  let calls := hookCallEdits s
  if calls.isEmpty || binds s "useRouter" then calls
  else calls ++ s.root.walk.filterMap (hookImportEdit? s)

def hookRule : RewriteRule where
  name := "use_navigate_to_use_router"
  phase := .routing
  description := "useNavigate() becomes useRouter()"
  rewrite v :=
    .of ((hookCallEdits v.source).map fun _ => "Transformed useNavigate to useRouter")
      (hookEdits v.source)

/-- All rules, in the order in which they apply. -/
def rules : List RewriteRule := [anchorRule, addressRule, navigateRule, hookRule]

end WebMigration.Lane.AppRouter
