import WebMigration.Text.Pattern

/-!
# Style sheets

A style sheet as a list of parts: rules with their preludes and blocks, statements that end with a
semicolon, and what is left at the end.  Of the rules with one selector only the first is kept; rules
that start with an at sign are always kept.
-/

namespace WebMigration.Style

open Text

/-- A part of a style sheet, with all of its characters. -/
inductive Part
  /-- What stands before the block, and the block with its braces. -/
  | rule (prelude block : List Char)
  /-- Everything up to a semicolon. -/
  | statement (text : List Char)
  /-- What is left at the end. -/
  | rest (text : List Char)
  deriving DecidableEq, Repr

/-- The characters of a part. -/
def Part.text : Part → List Char
  | .rule prelude block => prelude ++ block
  | .statement text => text
  | .rest text => text

/-! ## Reading -/

/-- How far the current part has been read: the characters before the block and those of the block so
far, both in reverse, and the number of open braces. -/
structure Reading where
  prelude : List Char := []
  block : List Char := []
  depth : Nat := 0

namespace Reading

/-- Takes a character into the part. -/
def take (r : Reading) (c : Char) : Reading :=
  if r.depth == 0 then { r with prelude := c :: r.prelude } else { r with block := c :: r.block }

/-- Takes an opening brace into the part. -/
def opened (r : Reading) : Reading := { r with block := '\x7b' :: r.block, depth := r.depth + 1 }

/-- All characters of the part. -/
def text (r : Reading) : List Char := r.prelude.reverse ++ r.block.reverse

end Reading

/-- Reads the parts of a style sheet.  Braces and semicolons in comments do not count. -/
def partsFrom (inComment : Bool) (r : Reading) : List Char → List Part
  | [] => [.rest r.text]
  | '*' :: '/' :: cs =>
      if inComment then partsFrom false ((r.take '*').take '/') cs
      else partsFrom false (r.take '*') ('/' :: cs)
  | '/' :: '*' :: cs =>
      if inComment then partsFrom true (r.take '/') ('*' :: cs)
      else partsFrom true ((r.take '/').take '*') cs
  | c :: cs =>
      if inComment then partsFrom true (r.take c) cs
      else if c == '\x7b' then partsFrom false r.opened cs
      else if c == '\x7d' && r.depth == 1 then
        .rule r.prelude.reverse ('\x7d' :: r.block).reverse :: partsFrom false {} cs
      else if c == '\x7d' && 1 < r.depth then
        partsFrom false { r with block := '\x7d' :: r.block, depth := r.depth - 1 } cs
      else if c == ';' && r.depth == 0 then
        .statement (';' :: r.prelude).reverse :: partsFrom false {} cs
      else partsFrom false (r.take c) cs
  termination_by cs => cs.length

/-- The parts of a style sheet. -/
def parts (css : List Char) : List Part := partsFrom false {} css

/-! ## Selectors -/

/-- The characters after the first end of a comment, if there is one. -/
def afterComment? : List Char → Option (List Char)
  | '*' :: '/' :: cs => some cs
  | _ :: cs => afterComment? cs
  | [] => none

/-- The characters without comments; at most `fuel` characters are looked at. -/
def withoutCommentsUpTo : Nat → List Char → List Char
  | 0, cs => cs
  | fuel + 1, cs =>
      match cs with
      | '/' :: '*' :: r =>
          match afterComment? r with
          | some rest => withoutCommentsUpTo fuel rest
          | none => '/' :: withoutCommentsUpTo fuel ('*' :: r)
      | c :: r => c :: withoutCommentsUpTo fuel r
      | [] => []

/-- The characters without comments. -/
def withoutComments (cs : List Char) : List Char := withoutCommentsUpTo (cs.length + 1) cs

/-- The characters with every run of blanks as one blank and none at the ends; `gap` tells whether
blanks have been left out since the last character. -/
def squeezedFrom (started gap : Bool) : List Char → List Char
  | [] => []
  | c :: cs =>
      if isSpace c then squeezedFrom started started cs
      else if gap then ' ' :: c :: squeezedFrom true false cs
      else c :: squeezedFrom true false cs

/-- The selector of a rule: its prelude without comments and with single blanks. -/
def selector (prelude : List Char) : List Char := squeezedFrom false false (withoutComments prelude)

/-- Whether a selector is that of a rule that is always kept. -/
def isAtRule (selector : List Char) : Bool := selector.head? == some '@'

/-! ## Dropping repeated rules -/

/-- The characters up to the last end of a comment; without one there are none. -/
def throughLastComment (cs : List Char) : List Char :=
  match cs.reverse, ends cs.reverse with
  | _, some before => (before.reverse ++ ['*', '/'])
  | _, none => []
where
  /-- What stands before the first comment end of a reversed text, reversed. -/
  ends : List Char → Option (List Char)
    | '/' :: '*' :: r => some r
    | _ :: r => ends r
    | [] => none

/-- What is kept of each part, given the selectors of the rules before. -/
def keptFrom (seen : List (List Char)) : List Part → List (List Char)
  | [] => []
  | .rule prelude block :: rest =>
      let s := selector prelude
      if isAtRule s || !seen.contains s then (prelude ++ block) :: keptFrom (s :: seen) rest
      else throughLastComment prelude :: keptFrom seen rest
  | p :: rest => p.text :: keptFrom seen rest

/-- The style sheet without rules whose selector occurred before; comments before them stay. -/
def withoutRepeats (css : String) : String :=
  String.ofList (keptFrom [] (parts css.toList)).flatten

/-! ## Merging -/

/-- A line that only holds a directive of the style tool, with blank lines around it. -/
def directiveLine : Pattern :=
  .all [.lineStart, .many true (.one isSpace), .literal "@tailwind", .some true (.one isSpace),
    .some true (.one fun c => isWord c || c == '-'), .many true (.one isSpace), .literal ";",
    .many true (.one isSpace), .lineEnd]

/-- One style sheet inside a merged one, under a comment with its path. -/
def headed (sheet : String × String) : String :=
  "/* From " ++ sheet.1 ++ " */\n" ++ strip (directiveLine.removeAll sheet.2) ++ "\n"

/-- Several style sheets in one, after a prelude and without repeated rules. -/
def merge (sheets : List (String × String)) (prelude : String) : String :=
  let merged := withoutRepeats (join "\n" (sheets.map headed))
  if prelude.isEmpty then merged else stripEnd prelude ++ "\n\n" ++ merged

end WebMigration.Style
