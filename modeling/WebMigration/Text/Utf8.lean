/-!
# Bytes of texts

Texts as lists of bytes in UTF-8, and back.  `decode?` refuses what is no encoding of a text.
-/

namespace WebMigration.Text

/-- The bytes of a text. -/
def encode (s : String) : List UInt8 := s.toUTF8.toList

/-- The text that the bytes stand for. -/
def decode? (bytes : List UInt8) : Option String := String.fromUTF8? ⟨bytes.toArray⟩

/-- The bytes from an offset up to another one, the end excluded. -/
def slice (bytes : List UInt8) (start stop : Nat) : List UInt8 := (bytes.take stop).drop start

/-- A byte of a character that is not its first one. -/
def isContinuation (b : UInt8) : Bool := 128 ≤ b && b < 192

/-- The text of bytes that start or end inside of a character.  Each byte of the one that is cut in front
becomes a replacement character, and so does what is left of the one that is cut at the end. -/
def patched (bytes : List UInt8) : String :=
  let whole := bytes.dropWhile isContinuation
  let front := String.ofList (List.replicate (bytes.length - whole.length) '\uFFFD')
  match decode? whole with
  | some text => front ++ text
  | none =>
      let text := [1, 2, 3].findSome? fun cut => decode? (whole.take (whole.length - cut))
      front ++ text.getD "" ++ "\uFFFD"

/-- The text between two offsets. -/
def between (bytes : ByteArray) (start stop : Nat) : String :=
  let part := bytes.extract start stop
  (String.fromUTF8? part).getD (patched part.toList)

/-- The place of a byte: its line, counted from 0, and its offset in the line. -/
structure Point where
  line : Nat
  column : Nat
  deriving DecidableEq, Repr

/-- The point after some bytes that start at a point. -/
def Point.advance (p : Point) (b : UInt8) : Point :=
  if b == 10 then ⟨p.line + 1, 0⟩ else ⟨p.line, p.column + 1⟩

/-- The point of an offset. -/
def pointAt (bytes : List UInt8) (offset : Nat) : Point :=
  (bytes.take offset).foldl Point.advance ⟨0, 0⟩

end WebMigration.Text
