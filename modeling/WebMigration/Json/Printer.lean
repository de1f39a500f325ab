import WebMigration.Json.Value

/-!
# Writing structured values

Values are written in ASCII, either on one line with a blank after each comma and colon, or over
several lines with an indentation.  `sorted` puts the fields of every record in the order of their
names.
-/

namespace WebMigration.Json

open Number

/-- Floating-point numbers that are no number or infinite are written as words. -/
def numberLayout : Binary64.Layout :=
  { Binary64.standardLayout with notANumber := "NaN", infinity := "Infinity" }

/-- Four hexadecimal digits. -/
def hexQuad (n : Nat) : List Char :=
  let ds := Nat.toDigits 16 n
  List.replicate (4 - ds.length) '0' ++ ds

/-- A character inside a written string. -/
def escapeChar (c : Char) : List Char :=
  if c == '"' then ['\\', '"']
  else if c == '\\' then ['\\', '\\']
  else if c == '\n' then ['\\', 'n']
  else if c == '\r' then ['\\', 'r']
  else if c == '\t' then ['\\', 't']
  else if c == '\x08' then ['\\', 'b']
  else if c == '\x0c' then ['\\', 'f']
  else if ' ' ≤ c && c ≤ '~' then [c]
  else if c.toNat < 0x10000 then '\\' :: 'u' :: hexQuad c.toNat
  else
    let n := c.toNat - 0x10000
    '\\' :: 'u' :: hexQuad (0xd800 + n / 0x400) ++ '\\' :: 'u' :: hexQuad (0xdc00 + n % 0x400)

/-- A written string. -/
def quote (s : String) : String := String.ofList ('"' :: s.toList.flatMap escapeChar ++ ['"'])

/-- A written scalar; lists and records are none. -/
def scalar : Json → String
  | null => "null"
  | bool true => "true"
  | bool false => "false"
  | int n => toString n
  | float x => x.render numberLayout
  | string s => quote s
  | date text => quote text
  | list _ => ""
  | record _ => ""

mutual

/-- A value on one line. -/
def compact : Json → String
  | list items => "[" ++ compactItems items ++ "]"
  | record fields => "\x7b" ++ compactFields fields ++ "\x7d"
  | v => scalar v

/-- Items on one line. -/
def compactItems : List Json → String
  | [] => ""
  | [v] => compact v
  | v :: w :: rest => compact v ++ ", " ++ compactItems (w :: rest)

/-- Fields on one line. -/
def compactFields : List (String × Json) → String
  | [] => ""
  | [(name, v)] => quote name ++ ": " ++ compact v
  | (name, v) :: f :: rest => quote name ++ ": " ++ compact v ++ ", " ++ compactFields (f :: rest)

end

/-- A line end and the indentation of a depth. -/
def newline (step depth : Nat) : String := String.ofList ('\n' :: List.replicate (step * depth) ' ')

mutual

/-- A value over several lines. -/
def indented (step depth : Nat) : Json → String
  | list [] => "[]"
  | list items => "[" ++ indentedItems step (depth + 1) items ++ newline step depth ++ "]"
  | record [] => "\x7b\x7d"
  | record fields => "\x7b" ++ indentedFields step (depth + 1) fields ++ newline step depth ++ "\x7d"
  | v => scalar v

/-- Items on lines of their own. -/
def indentedItems (step depth : Nat) : List Json → String
  | [] => ""
  | [v] => newline step depth ++ indented step depth v
  | v :: w :: rest =>
      newline step depth ++ indented step depth v ++ "," ++ indentedItems step depth (w :: rest)

/-- Fields on lines of their own. -/
def indentedFields (step depth : Nat) : List (String × Json) → String
  | [] => ""
  | [(name, v)] => newline step depth ++ quote name ++ ": " ++ indented step depth v
  | (name, v) :: f :: rest =>
      newline step depth ++ quote name ++ ": " ++ indented step depth v ++ "," ++
        indentedFields step depth (f :: rest)

end

/-- Inserts a field before the first one with a later name. -/
def insertSorted (f : String × Json) : List (String × Json) → List (String × Json)
  | [] => [f]
  | g :: rest => if f.1 < g.1 then f :: g :: rest else g :: insertSorted f rest

mutual

/-- The value with the fields of every record in the order of their names. -/
def sorted : Json → Json
  | list items => list (sortedItems items)
  | record fields => record (sortedFields fields)
  | v => v

def sortedItems : List Json → List Json
  | [] => []
  | v :: rest => sorted v :: sortedItems rest

def sortedFields : List (String × Json) → List (String × Json)
  | [] => []
  | (name, v) :: rest => insertSorted (name, sorted v) (sortedFields rest)

end

end WebMigration.Json
