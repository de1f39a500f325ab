/-!
# Places in a text

A place in a text with its line and its column, and the blanks, comments and document marks that may
stand there.
-/

namespace WebMigration.Yaml

/-- Whether a character ends a line. -/
def isBreak (c : Char) : Bool :=
  c == '\n' || c == '\r' || c == '\u0085' || c == '\u2028' || c == '\u2029'

/-- Whether a character is a blank or ends a line. -/
def isBlank (c : Char) : Bool := c == ' ' || c == '\t' || isBreak c

/-- Whether a blank or nothing comes next. -/
def blankNext (cs : List Char) : Bool := (cs.head?.map isBlank).getD true

/-- Whether a text may contain a character at all. -/
def isPrintable (c : Char) : Bool :=
  c == '\t' || c == '\n' || c == '\r' || c == '\u0085' || ('\x20' ≤ c && c ≤ '\x7e') ||
    ('\u00a0' ≤ c && c ≤ '\ufffd') || '\uffff' < c

/-- A place in a text: what is left of it, and the line and the column. -/
structure Cursor where
  rest : List Char
  line : Nat := 0
  column : Nat := 0

namespace Cursor

/-- The place after one character.  Of a carriage return and a line feed only the second ends the
line. -/
def next (c : Cursor) : Cursor :=
  match c.rest with
  | [] => c
  | '\r' :: '\n' :: r => ⟨'\n' :: r, c.line, c.column + 1⟩
  | x :: r =>
      if isBreak x then ⟨r, c.line + 1, 0⟩
      else ⟨r, c.line, if x == '\ufeff' then c.column else c.column + 1⟩

/-- The place after some characters. -/
def skip : Nat → Cursor → Cursor
  | 0, c => c
  | n + 1, c => skip n c.next

/-- The place after all characters of a kind that come next. -/
def skipAll (test : Char → Bool) (c : Cursor) : Cursor := c.skip (c.rest.takeWhile test).length

def skipSpaces (c : Cursor) : Cursor := c.skipAll (· == ' ')

/-- The place at the end of the line. -/
def lineEnd (c : Cursor) : Cursor := c.skipAll (!isBreak ·)

/-- A line break that comes next: what it stands for, and the place after it. -/
def lineBreak? (c : Cursor) : Option (Char × Cursor) :=
  match c.rest with
  | '\r' :: '\n' :: _ => some ('\n', c.next.next)
  | x :: _ =>
      if x == '\u2028' || x == '\u2029' then some (x, c.next)
      else if isBreak x then some ('\n', c.next)
      else none
  | [] => none

def atEnd (c : Cursor) : Bool := c.rest.isEmpty

/-- Whether a character with a blank after it comes next. -/
def atMarker (x : Char) (c : Cursor) : Bool :=
  match c.rest with
  | y :: r => x == y && blankNext r
  | [] => false

/-- Whether a mark that starts or ends a document comes next. -/
def atDocumentMark (c : Cursor) : Bool :=
  c.column == 0 && (c.rest.take 3 == ['-', '-', '-'] || c.rest.take 3 == ['.', '.', '.']) &&
    blankNext (c.rest.drop 3)

/-- The place of the next token; at most `fuel` blanks and comments are skipped. -/
def tokenUpTo : Nat → Cursor → Cursor
  | 0, c => c
  | fuel + 1, c =>
      match c.rest with
      | '#' :: _ => tokenUpTo fuel c.lineEnd
      | x :: _ => if x == ' ' || isBreak x then tokenUpTo fuel c.next else c
      | [] => c

/-- The place of the next token, after spaces, line breaks and comments. -/
def token (c : Cursor) : Cursor := c.tokenUpTo (c.rest.length + 1)

/-- The number of characters between two places. -/
def distance (c later : Cursor) : Nat := c.rest.length - later.rest.length

end Cursor

end WebMigration.Yaml
