import WebMigration.Rewrite.Rule

/-!
# Renames

Rules made from the symbol tables of a specification: renaming functions that are called and
imported, and renaming markup elements.  Entries that are prose rather than names make no rule.
-/

namespace WebMigration.Rewrite

open Syntax
open WebMigration.Module (Source)

/-! ## Names -/

/-- Whether a character may start a name. -/
def startsName (c : Char) : Bool := c.isAlpha || c == '_' || c == '$'

/-- Whether characters form a name. -/
def isNameChars : List Char → Bool
  | [] => false
  | c :: r => startsName c && r.all fun x => Text.isWord x || x == '$'

/-- The characters of a text without one line end that may end it. -/
def withoutFinalNewline (s : String) : List Char :=
  if s.toList.getLast? == some '\n' then s.toList.dropLast else s.toList

/-- Whether a text is a plain name, a line end after it aside. -/
def isPlainName (s : String) : Bool := isNameChars (withoutFinalNewline s)

/-- Whether a text is a chain of names with dots between, a line end after it aside. -/
def isDottedName (s : String) : Bool :=
  (Text.pieces ['.'] (withoutFinalNewline s)).all isNameChars

/-! ## Functions -/

/-- The edit of a node that calls `old` or, unless `bound`, imports it under its own name. -/
def renameCallOrImport (s : Source) (bound : Bool) (old new : String) (n : Node) : Option Edit :=
  match calledName? s n with
  | some (f, name) => if name == old then some (replacing f new) else none
  | none =>
      if bound then none
      else
        match plainlyImported? s n with
        | some (i, name) => if name == old then some (replacing i new) else none
        | none => none

/-- The edits that rename calls of a function and its import, the latter only while no import binds
the new name. -/
def renameEdits (s : Source) (old new : String) : List Edit :=
  s.root.walk.filterMap (renameCallOrImport s (binds s new) old new)

/-- A note when there is something to note. -/
def noteOf (edits : List Edit) (note : String) : List String := if edits.isEmpty then [] else [note]

/-- The rule that renames a function. -/
def renameRule (old new : String) : RewriteRule where
  name := "rename_" ++ old
  phase := .routing
  description := "Routing API rename " ++ old ++ " -> " ++ new
  rewrite v :=
    let edits := renameEdits v.source old new
    .of (noteOf edits ("Renamed " ++ old ++ " to " ++ new)) edits

/-! ## Markup elements -/

/-- Whether a node is any tag of a markup element. -/
def isTag (n : Node) : Bool := isOpeningTag n || n.kind == .jsxClosingElement

/-- The edit of the name of a tag called `old`. -/
def renameTag (s : Source) (old new : String) (n : Node) : Option Edit :=
  if isTag n then
    match n.child? .name with
    | some name => if s.nodeText name == old then some (replacing name new) else none
    | none => none
  else none

/-- The edits that rename markup elements. -/
def renameTagEdits (s : Source) (old new : String) : List Edit :=
  s.root.walk.filterMap (renameTag s old new)

/-- The rule that renames markup elements. -/
def renameTagRule (old new : String) : RewriteRule where
  name := "jsx_" ++ old
  phase := .routing
  description := "Component rename <" ++ old ++ "> -> <" ++ new ++ ">"
  rewrite v :=
    let edits := renameTagEdits v.source old new
    .of (noteOf edits ("Renamed <" ++ old ++ "> to <" ++ new ++ ">")) edits

/-! ## Symbol tables -/

/-- The rules of a table whose entries are names of a kind. -/
def tableRules (isName : String → Bool) (rule : String → String → RewriteRule)
    (table : Table String) : List RewriteRule :=
  table.filterMap fun (old, new) =>
    if old != new && isName old && isName new then some (rule old new) else none

/-- The rules of the symbol tables of a specification. -/
def mappingRules (spec : Specification) : List RewriteRule :=
  tableRules isPlainName renameRule spec.mappings.routing ++
    tableRules isDottedName renameTagRule spec.mappings.components

end WebMigration.Rewrite
