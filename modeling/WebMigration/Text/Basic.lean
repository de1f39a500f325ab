import WebMigration.Text.Character

/-!
# Texts

Searching, splitting, trimming and joining of texts, stated on lists of characters and offered on
strings.  Lengths and offsets count characters.
-/

namespace WebMigration.Text

/-! ## Lists of characters -/

/-- What stands before and after the first occurrence of a text. -/
def breakOn? (sought : List Char) : List Char → Option (List Char × List Char)
  | [] => if sought.isEmpty then some ([], []) else none
  | c :: r =>
      if sought.isPrefixOf (c :: r) then some ([], (c :: r).drop sought.length)
      else (breakOn? sought r).map fun (before, after) => (c :: before, after)

/-- The pieces between the occurrences of a text, at most `fuel` of them split off. -/
def piecesUpTo (separator : List Char) : Nat → List Char → List (List Char)
  | 0, cs => [cs]
  | fuel + 1, cs =>
      match breakOn? separator cs with
      | some (before, after) => before :: piecesUpTo separator fuel after
      | none => [cs]

/-- The pieces between the occurrences of a text that is not empty. -/
def pieces (separator cs : List Char) : List (List Char) := piecesUpTo separator cs.length cs

/-- Drops characters from the end as long as the test holds. -/
def dropEndWhile (test : Char → Bool) (cs : List Char) : List Char :=
  (cs.reverse.dropWhile test).reverse

/-- Drops characters from both ends as long as the test holds. -/
def trimBoth (test : Char → Bool) (cs : List Char) : List Char :=
  dropEndWhile test (cs.dropWhile test)

/-- A character that ends a line. -/
def isLineEnd (c : Char) : Bool :=
  ('\n' ≤ c && c ≤ '\r') || ('\x1c' ≤ c && c ≤ '\x1e') || c == '\u0085' || c == '\u2028' ||
    c == '\u2029'

/-- The lines of a text with their ends, after the characters of the current line in reverse. -/
def linesAfter (current : List Char) : List Char → List (List Char)
  | [] => if current.isEmpty then [] else [current.reverse]
  | '\r' :: '\n' :: r => ('\n' :: '\r' :: current).reverse :: linesAfter [] r
  | c :: r =>
      if isLineEnd c then (c :: current).reverse :: linesAfter [] r else linesAfter (c :: current) r

/-- The lines of a text, each with its end. -/
def linesWithEnds (cs : List Char) : List (List Char) := linesAfter [] cs

/-- A line without its end. -/
def withoutEnd (line : List Char) : List Char := dropEndWhile isLineEnd line

/-! ## Strings -/

def startsWith (start s : String) : Bool := start.toList.isPrefixOf s.toList

def endsWith (tail s : String) : Bool := tail.toList.isSuffixOf s.toList

def contains (sought s : String) : Bool := (breakOn? sought.toList s.toList).isSome

/-- The text without its first characters. -/
def drop (n : Nat) (s : String) : String := String.ofList (s.toList.drop n)

/-- The text without its last characters. -/
def dropEnd (n : Nat) (s : String) : String := String.ofList (s.toList.take (s.length - n))

/-- The pieces of a text between separators. -/
def splitOn (separator s : String) : List String :=
  (pieces separator.toList s.toList).map String.ofList

/-- Texts one after the other with a separator between. -/
def join (separator : String) (parts : List String) : String := String.intercalate separator parts

/-- The text with every occurrence of one text replaced by another. -/
def replace (old new s : String) : String := join new (splitOn old s)

/-- What stands before and after the first occurrence, or the whole text and nothing. -/
def partitionOn (separator s : String) : String × String :=
  match breakOn? separator.toList s.toList with
  | some (before, after) => (String.ofList before, String.ofList after)
  | none => (s, "")

/-- The piece after the last occurrence of a separator. -/
def afterLast (separator s : String) : String := (splitOn separator s).getLast?.getD s

/-- The text without blanks at its ends. -/
def strip (s : String) : String := String.ofList (trimBoth isSpace s.toList)

def stripEnd (s : String) : String := String.ofList (dropEndWhile isSpace s.toList)

/-- The text without slashes at its end. -/
def withoutTrailingSlashes (s : String) : String :=
  String.ofList (dropEndWhile (· == '/') s.toList)

/-- The lines of a text without their ends. -/
def lines (s : String) : List String :=
  (linesWithEnds s.toList).map fun l => String.ofList (withoutEnd l)

/-- The lines of a text with their ends. -/
def linesKeepingEnds (s : String) : List String := (linesWithEnds s.toList).map String.ofList

/-- Whether a text ends with a lower-case one in any case of letters; a line end may follow. -/
def endsLike (ending s : String) : Bool :=
  let cs := if s.toList.getLast? == some '\n' then s.toList.dropLast else s.toList
  let tail := cs.drop (cs.length - ending.length)
  tail.length == ending.length && (ending.toList.zip tail).all fun (e, c) => isLetterOf e c

/-- Only the letters and numerals of the lower case of a text. -/
def normalizedKey (s : String) : String := String.ofList ((lower s).toList.filter isAlphanumeric)

/-- A text in quotes as a listing shows it: in single quotes, or in double quotes when it holds a
single quote and no double quote. -/
def quoted (s : String) : String :=
  let cs := s.toList
  let quote := if cs.contains '\'' && !cs.contains '"' then '"' else '\''
  String.ofList (quote :: cs.flatMap (shown quote) ++ [quote])
where
  hex (width n : Nat) : List Char :=
    let ds := Nat.toDigits 16 n
    List.replicate (width - ds.length) '0' ++ ds
  shown (quote c : Char) : List Char :=
    if c == quote || c == '\\' then ['\\', c]
    else if c == '\n' then ['\\', 'n']
    else if c == '\r' then ['\\', 'r']
    else if c == '\t' then ['\\', 't']
    else if c < ' ' || ('\x7f' ≤ c && c ≤ '\u00a0') || c == '\u00ad' then
      ['\\', 'x'] ++ hex 2 c.toNat
    else if c == '\u2028' || c == '\u2029' || ('\u2000' ≤ c && c ≤ '\u200f') || c == '\u3000' ||
        c == '\ufeff' then ['\\', 'u'] ++ hex 4 c.toNat
    else [c]

end WebMigration.Text
