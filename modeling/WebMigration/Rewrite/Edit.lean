import WebMigration.Text.Utf8
import WebMigration.Failure.Basic
import WebMigration.Json.Access

/-!
# Edits

Replacing ranges of bytes of a text.  Edits are applied from the last range to the first, so that the
offsets of those still to come stay valid; an edit whose range ends after the start of one already
applied is dropped.  Offsets below zero count from the end.
-/

namespace WebMigration

/-- The replacement of a range of bytes. -/
structure Edit where
  start : Int
  stop : Int
  replacement : String
  deriving DecidableEq, Repr

namespace Edit

/-- An edit of a range that lies inside the text. -/
def replacing (start stop : Nat) (replacement : String) : Edit := ⟨start, stop, replacement⟩

/-- The offset that a number denotes in a text of some length. -/
def resolve (length : Nat) (i : Int) : Nat :=
  if i < 0 then (length + i).toNat else min i.toNat length

/-- Whether one edit is applied before another or stands for the same range. -/
def laterOrEqual (a b : Edit) : Bool :=
  b.start < a.start || (a.start == b.start && b.stop ≤ a.stop)

/-- The edits from the last range to the first; edits of one range keep their order. -/
def ordered (edits : List Edit) : List Edit := edits.mergeSort laterOrEqual

/-- The bytes with one range replaced. -/
def splice (e : Edit) (bytes : List UInt8) : List UInt8 :=
  bytes.take (resolve bytes.length e.start) ++ Text.encode e.replacement ++
    bytes.drop (resolve bytes.length e.stop)

/-- Applies edits that are in order, each unless it ends after the boundary. -/
def applyOrdered : List Edit → Int → List UInt8 → List UInt8
  | [], _, bytes => bytes
  | e :: rest, boundary, bytes =>
      if boundary < e.stop then applyOrdered rest boundary bytes
      else applyOrdered rest e.start (e.splice bytes)

/-- The bytes after all edits that do not overlap. -/
def applyBytes (bytes : List UInt8) (edits : List Edit) : List UInt8 :=
  applyOrdered (ordered edits) (bytes.length + 1) bytes

/-- The text after all edits that do not overlap; an edit that cuts a character is an error. -/
def apply (bytes : List UInt8) (edits : List Edit) : Except Fault String :=
  match Text.decode? (applyBytes bytes edits) with
  | some s => .ok s
  | none => .error (.of .decoding "")

/-- The edit that a list of a start, a stop and a text stands for. -/
def ofJson (v : Json) : Edit :=
  match v.asItems with
  | [a, b, t] => ⟨a.asInteger, b.asInteger, t.asText⟩
  | _ => ⟨0, 0, ""⟩

end Edit

end WebMigration
