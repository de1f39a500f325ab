import WebMigration.Json.Value

/-!
# Reading structured values

The JSON notation, extended by the numbers `NaN` and `Infinity`.  Control characters may not stand
in strings, and of several fields with one name the last one counts.  A whole number of too many digits
is not read, whatever stands behind it.
-/

namespace WebMigration.Json

open Number

/-- Why a text is read as no value: it is malformed, or a whole number in it has too many digits. -/
inductive Misreading
  | malformed
  | oversized (digits : Nat)
  deriving DecidableEq, Repr

/-- What is missing is malformed. -/
def orMalformed {α : Type} : Option α → Except Misreading α
  | some a => .ok a
  | none => .error .malformed

/-- The number of digits that a whole number may have. -/
def digitLimit : Nat := 4300

def isJsonBlank (c : Char) : Bool := c == ' ' || c == '\t' || c == '\n' || c == '\r'

def skipBlanks (cs : List Char) : List Char := cs.dropWhile isJsonBlank

/-- The value of a hexadecimal digit. -/
def hexDigit? (c : Char) : Option Nat :=
  if c.isDigit then some (c.toNat - 48)
  else if 'a' ≤ c && c ≤ 'f' then some (c.toNat - 87)
  else if 'A' ≤ c && c ≤ 'F' then some (c.toNat - 55)
  else none

/-- The number that four hexadecimal digits stand for. -/
def hexQuad? (a b c d : Char) : Option Nat := do
  let a ← hexDigit? a
  let b ← hexDigit? b
  let c ← hexDigit? c
  let d ← hexDigit? d
  return ((a * 16 + b) * 16 + c) * 16 + d

/-- The character for a one-letter escape. -/
def simpleEscape? : Char → Option Char
  | '"' => some '"'
  | '\\' => some '\\'
  | '/' => some '/'
  | 'b' => some '\x08'
  | 'f' => some '\x0c'
  | 'n' => some '\n'
  | 'r' => some '\r'
  | 't' => some '\t'
  | _ => none

/-- The character for two halves of a surrogate pair. -/
def surrogatePair? (high low : Nat) : Option Char :=
  if 0xd800 ≤ high && high < 0xdc00 && 0xdc00 ≤ low && low < 0xe000 then
    some (Char.ofNat (0x10000 + (high - 0xd800) * 0x400 + (low - 0xdc00)))
  else none

/-- A code unit as a character; half a pair alone becomes the replacement character. -/
def unitChar (n : Nat) : Char := if 0xd800 ≤ n && n < 0xe000 then '\ufffd' else Char.ofNat n

/-- The character for a code unit, the first half of a pair, and the other half that follows. -/
def joinedHalves? (high : Nat) (cs : List Char) : Option (Char × List Char) :=
  match cs with
  | '\\' :: 'u' :: a :: b :: c :: d :: r =>
      (hexQuad? a b c d).bind fun low => (surrogatePair? high low).map fun ch => (ch, r)
  | _ => none

/-- The character for a code unit in four digits, or for it and the one that follows. -/
def readUnit (cs : List Char) : Option (Char × List Char) :=
  match cs with
  | a :: b :: c :: d :: r =>
      (hexQuad? a b c d).map fun unit => (joinedHalves? unit r).getD (unitChar unit, r)
  | _ => none

/-- The character for what follows a backslash. -/
def readEscape (cs : List Char) : Option (Char × List Char) :=
  match cs with
  | 'u' :: r => readUnit r
  | c :: r => (simpleEscape? c).map fun ch => (ch, r)
  | [] => none

/-- The next character of a string. -/
def readChar (cs : List Char) : Option (Char × List Char) :=
  match cs with
  | '\\' :: r => readEscape r
  | c :: r => if c < ' ' then none else some (c, r)
  | [] => none

/-- The inside of a string up to its closing quote. -/
def readStringUpTo : Nat → List Char → Option (List Char × List Char)
  | 0, _ => none
  | fuel + 1, cs =>
      match cs with
      | '"' :: r => some ([], r)
      | cs => do
          let (c, rest) ← readChar cs
          let (others, rest) ← readStringUpTo fuel rest
          return (c :: others, rest)

/-- A string after its opening quote. -/
def readString (cs : List Char) : Option (String × List Char) :=
  (readStringUpTo (cs.length + 1) cs).map fun (s, rest) => (String.ofList s, rest)

/-- The natural number that some digits stand for. -/
def digitsValue (ds : List Char) : Nat := ds.foldl (fun n c => n * 10 + (c.toNat - 48)) 0

/-- The whole part of a number: a zero alone or digits that start with none. -/
def readWhole (cs : List Char) : Option (List Char × List Char) :=
  match cs with
  | '0' :: r => some (['0'], r)
  | c :: _ => if c.isDigit then some (cs.takeWhile Char.isDigit, cs.dropWhile Char.isDigit) else none
  | [] => none

/-- The digits after a point, if a point with digits follows. -/
def readFraction (cs : List Char) : Option (List Char) × List Char :=
  match cs with
  | '.' :: c :: r =>
      if c.isDigit then
        (some ((c :: r).takeWhile Char.isDigit), (c :: r).dropWhile Char.isDigit)
      else (none, cs)
  | _ => (none, cs)

/-- Whether a minus sign comes first, and what follows a sign. -/
def readSign (cs : List Char) : Bool × List Char :=
  match cs with
  | '-' :: r => (true, r)
  | '+' :: r => (false, r)
  | _ => (false, cs)

/-- The exponent, if one follows. -/
def readExponent (cs : List Char) : Option Int × List Char :=
  match cs with
  | e :: r =>
      let (negative, ds) := readSign r
      if (e == 'e' || e == 'E') && (ds.head?.map Char.isDigit).getD false then
        let n : Int := digitsValue (ds.takeWhile Char.isDigit)
        (some (if negative then -n else n), ds.dropWhile Char.isDigit)
      else (none, cs)
  | [] => (none, cs)

/-- The number with a whole part, digits after the point and an exponent. -/
def numeral (negative : Bool) (whole : List Char) (fraction : Option (List Char))
    (exponent : Option Int) : Except Misreading Json :=
  match fraction, exponent with
  | none, none =>
      let n : Int := digitsValue whole
      if digitLimit < whole.length then .error (.oversized whole.length)
      else .ok (.int (if negative then -n else n))
  | _, _ =>
      let places := fraction.getD []
      let shift : Int := exponent.getD 0 - (places.length : Int)
      .ok (.float (Binary64.ofDecimal negative (digitsValue (whole ++ places)) shift))

/-- A number without its sign. -/
def readUnsigned (negative : Bool) (cs : List Char) : Except Misreading (Json × List Char) := do
  let (whole, rest) ← orMalformed (readWhole cs)
  let (fraction, rest) := readFraction rest
  let (exponent, rest) := readExponent rest
  return (← numeral negative whole fraction exponent, rest)

/-- A word that stands for a value. -/
def readWord (cs : List Char) : Option (Json × List Char) :=
  let words : List (String × Json) := [
    ("null", .null), ("true", .bool true), ("false", .bool false), ("NaN", .float .nan),
    ("Infinity", .float (.infinite false)), ("-Infinity", .float (.infinite true))]
  (words.find? fun w => w.1.toList.isPrefixOf cs).map fun w => (w.2, cs.drop w.1.length)

mutual

/-- A value at the head of a text. -/
def readValue : Nat → List Char → Except Misreading (Json × List Char)
  | 0, _ => .error .malformed
  | fuel + 1, cs =>
      match cs with
      | '"' :: r => (orMalformed (readString r)).map fun (s, rest) => (.string s, rest)
      | '[' :: r =>
          match skipBlanks r with
          | ']' :: rest => .ok (.list [], rest)
          | items => (readItems fuel items).map fun (vs, rest) => (.list vs, rest)
      | '\x7b' :: r =>
          match skipBlanks r with
          | '\x7d' :: rest => .ok (.record [], rest)
          | fields => (readFields fuel fields).map fun (fs, rest) => (.record (distinct fs), rest)
      | '-' :: r =>
          match readWord cs with
          | some found => .ok found
          | none => readUnsigned true r
      | _ =>
          match readWord cs with
          | some found => .ok found
          | none => readUnsigned false cs

/-- The items of a list up to its closing bracket. -/
def readItems : Nat → List Char → Except Misreading (List Json × List Char)
  | 0, _ => .error .malformed
  | fuel + 1, cs => do
      let (v, rest) ← readValue fuel cs
      match skipBlanks rest with
      | ',' :: rest => do
          let (vs, rest) ← readItems fuel (skipBlanks rest)
          return (v :: vs, rest)
      | ']' :: rest => return ([v], rest)
      | _ => .error .malformed

/-- The fields of a record up to its closing brace. -/
def readFields : Nat → List Char → Except Misreading (List (String × Json) × List Char)
  | 0, _ => .error .malformed
  | fuel + 1, cs =>
      match cs with
      | '"' :: r => do
          let (name, rest) ← orMalformed (readString r)
          match skipBlanks rest with
          | ':' :: rest => do
              let (v, rest) ← readValue fuel (skipBlanks rest)
              match skipBlanks rest with
              | ',' :: rest => do
                  let (fs, rest) ← readFields fuel (skipBlanks rest)
                  return ((name, v) :: fs, rest)
              | '\x7d' :: rest => return ([(name, v)], rest)
              | _ => .error .malformed
          | _ => .error .malformed
      | _ => .error .malformed

end

/-- The value that a whole text stands for. -/
def parse (s : String) : Except Misreading Json := do
  let cs := s.toList
  let (v, rest) ← readValue (cs.length + 1) (skipBlanks cs)
  if (skipBlanks rest).isEmpty then return v else .error .malformed

/-- The value that a whole text stands for, if it stands for one. -/
def parse? (s : String) : Option Json := (parse s).toOption

end WebMigration.Json
