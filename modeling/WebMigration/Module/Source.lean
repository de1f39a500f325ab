import WebMigration.Module.Grammars

/-!
# Parsed files

A file with its syntax tree, the modules that it refers to and the names that it exports, both read off
the tree.  Of a text that parses the grammar says what the tree is.  Of one that does not it says
nothing: what tree there is then depends on how the parser goes on after an error, and this is a
parameter of everything that parses, a `Salvage`.  Its trees hold nodes for what no rule of the grammar
stands for and for what is missing, and the first one of these is the error that is reported.
-/

namespace WebMigration.Module

open Syntax

/-! ## Texts that do not parse -/

/-- Where a text stops being readable, and whether that is for something that is missing. -/
structure SyntaxError extends Text.Point where
  isMissing : Bool
  deriving DecidableEq, Repr

/-- The message for a syntax error. -/
def SyntaxError.message (e : SyntaxError) : String :=
  (if e.isMissing then "missing" else "unexpected") ++ " token at line " ++ toString (e.line + 1) ++
    ", column " ++ toString (e.column + 1)

/-- What is left of a text that does not parse. -/
structure Salvaged where
  root : Node
  /-- Whether a node stands for something that is missing from the text. -/
  isMissing : Node → Bool

namespace Salvaged

/-- Whether a node stands for an error. -/
def isFaulty (t : Salvaged) (n : Node) : Bool := n.kind == .error || t.isMissing n

/-- The error that the first node for one tells of. -/
def error (t : Salvaged) (c : Content) : SyntaxError :=
  match t.root.walk.find? t.isFaulty with
  | some n => ⟨c.point n, t.isMissing n⟩
  | none => ⟨⟨0, 0⟩, false⟩

end Salvaged

/-- A way to go on after syntax errors.  As an instance it stands for the same parser throughout. -/
class Salvage where
  /-- What is left of a text that does not parse under a dialect. -/
  left : Dialect → List Char → Salvaged

/-! ## Files -/

/-- A parsed file. -/
structure Source where
  path : String
  dialect : Dialect
  content : Content
  root : Node
  references : List Reference
  exports : List String
  lineCount : Nat
  /-- The first syntax error, if there is one. -/
  error : Option SyntaxError

namespace Source

/-- The number of lines, where a line end at the end of the text starts no further line. -/
def countLines (text : List Char) : Nat :=
  text.count '\n' + (if text.isEmpty || text.getLast? == some '\n' then 0 else 1)

/-- The file with a text over which a tree stands. -/
def ofTree (dialect : Dialect) (text path : String) (root : Node)
    (error : Option SyntaxError) : Source :=
  let content := Content.ofString text
  ⟨path, dialect, content, root, Module.references content root, Module.exports content root,
    countLines text.toList, error⟩

/-- A text that parses under a dialect. -/
def readAs? (dialect : Dialect) (text path : String) : Option Source :=
  match Syntax.parse dialect text.toList with
  | .ok piece => some (ofTree dialect text path piece.node none)
  | .error _ => none

/-- A text that does not parse under a dialect. -/
def salvageAs [Salvage] (dialect : Dialect) (text path : String) : Source :=
  let left := Salvage.left dialect text.toList
  ofTree dialect text path left.root (some (left.error (Content.ofString text)))

/-- Parses a text under a dialect. -/
def parseAs [Salvage] (dialect : Dialect) (text path : String) : Source :=
  (readAs? dialect text path).getD (salvageAs dialect text path)

/-- The grammar for a path and a declared language. -/
def dialectOf (path : String) (language : Option String) : Dialect :=
  match Grammars.builtIn.parserFor language path with
  | .ok (d, _) => d
  | .error _ => .javascript

/-- Parses a file under the grammar for its path and its declared language. -/
def parse [Salvage] (text path : String) (language : Option String) : Source :=
  parseAs (dialectOf path language) text path

def hasError (s : Source) : Bool := s.error.isSome

/-- The message of the syntax error. -/
def firstError (s : Source) : String :=
  (s.error.map (·.message)).getD "unknown syntax error"

/-- The text of the file. -/
def text (s : Source) : String := Text.between s.content.bytes 0 s.content.bytes.size

/-- The text that a node covers. -/
def nodeText (s : Source) (n : Node) : String := s.content.text n

/-- The place where a node starts. -/
def point (s : Source) (n : Node) : Text.Point := s.content.point n

end Source

/-! ## Giving up -/

namespace Salvage

/-- The longest beginning of a text that takes at most so many bytes. -/
def upTo : Nat → List Char → List Char
  | _, [] => []
  | k, c :: rest => if c.utf8Size ≤ k then c :: upTo (k - c.utf8Size) rest else []

/-- A character of a name. -/
def isNamePart (c : Char) : Bool := c.isAlphanum || c == '$' || c == '_' || 128 ≤ c.toNat

/-- A text without the name at its end, with blanks behind it, if it ends with one. -/
def withoutName (front : List Char) : List Char :=
  let named := front.reverse.dropWhile (· == ' ')
  let name := named.takeWhile isNamePart
  if name.isEmpty then front else (named.drop name.length).reverse

/-- What stands before an error at which reading stopped after so many bytes.  A colon that cannot follow
a name is blamed on the name. -/
def frontOf (text : List Char) (reach : Nat) : List Char :=
  let front := upTo reach text
  if text[front.length]? == some ':' then withoutName front else front

/-- Reads no further than to the first error: all that is left is a node from there on. -/
abbrev stopping : Salvage where
  left dialect text :=
    let front := match Syntax.parse dialect text with
      | .ok _ => text
      | .error reach => frontOf text reach
    ⟨⟨.program, none, 0, byteSize text, [.leaf .error (byteSize front) (byteSize text)]⟩,
      fun _ => false⟩

end Salvage

end WebMigration.Module
