import WebMigration.Json.Parser
import WebMigration.Json.Display
import WebMigration.Json.Decoder

/-!
# Answers of the model

Reading the answer of the semantic pass: a record with the code, the confidence, warnings and whether
someone has to look at it.  Any other answer is taken as plain code of low confidence.
-/

namespace WebMigration

/-- What the semantic pass answers with. -/
structure SemanticResult where
  /-- The code as it was given; only a text can be used. -/
  code : Json
  confidence : Int
  warnings : List String := []
  review : Bool := false

namespace SemanticResult

def toJson (r : SemanticResult) : Json :=
  .record [("code", r.code), ("confidence", .int r.confidence), ("warnings", .strings r.warnings),
    ("requires_review", .bool r.review)]

open Text

/-- The mark around code in an answer. -/
def fence : String := "\x60\x60\x60"

/-- The lines without a last one that is only a fence. -/
def withoutClosingFence (lines : List String) : List String :=
  match lines.getLast? with
  | some last => if strip last == fence then lines.dropLast else lines
  | none => lines

/-- The answer without the fence around it. -/
def withoutFences (answer : String) : String :=
  let text := strip answer
  if startsWith fence text then
    strip (join "\n" (withoutClosingFence ((splitOn "\n" text).drop 1)))
  else text

/-- The text from the first opening brace to the last closing one. -/
def braced? (text : String) : Option String :=
  let cs := text.toList
  let before := (cs.takeWhile (· != '\x7b')).length
  let after := (cs.reverse.takeWhile (· != '\x7d')).length
  if before + after + 1 < cs.length then
    some (String.ofList ((cs.drop before).take (cs.length - before - after)))
  else none

/-- A whole number has too many digits to be read. -/
def overlong (digits : Nat) : Fault :=
  .value ("Exceeds the limit (" ++ toString Json.digitLimit ++
    " digits) for integer string conversion: value has " ++ toString digits ++
    " digits; use sys.set_int_max_str_digits() to increase the limit")

/-- The value that a text stands for, if it stands for one. -/
def decode (text : String) : Except Fault (Option Json) :=
  match Json.parse text with
  | .ok v => .ok (some v)
  | .error .malformed => .ok none
  | .error (.oversized digits) => .error (overlong digits)

/-- The fields of a record. -/
def fieldsOf : Json → Option (List (String × Json))
  | .record fields => some fields
  | _ => none

/-- The record in an answer: the whole of it, or the part in braces of an answer that is no value. -/
def recordIn (text : String) : Except Fault (Option (List (String × Json))) := do
  match ← decode text with
  | some v => return fieldsOf v
  | none =>
      match braced? text with
      | some part => return (← decode part).bind fieldsOf
      | none => return none

/-- The confidence that is assumed where none is given. -/
def assumedConfidence : Int := 50

/-- The whole number in a text, unless it has too many digits. -/
def wholeNumber? (s : String) : Option Int :=
  if Json.digitLimit < s.toList.countP (fun c => (digitValue? c).isSome) then none
  else Decoder.wholeNumber? s

/-- An infinite confidence cannot be used. -/
def unbounded : Fault := .of .overflow "cannot convert float infinity to integer"

/-- The confidence that a value gives; one without bounds is an error. -/
def readConfidence (v : Json) : Except Fault Int :=
  if !v.isTruthy then .ok assumedConfidence
  else
    match v with
    | .int n => .ok n
    | .bool _ => .ok 1
    | .float x =>
        match x with
        | .infinite _ => .error unbounded
        | x => .ok (x.truncate?.getD assumedConfidence)
    | .string s => .ok ((wholeNumber? s).getD assumedConfidence)
    | _ => .ok assumedConfidence

/-- The warnings that a value gives. -/
def readWarnings (v : Json) : List String :=
  if !v.isTruthy then []
  else
    match v with
    | .list items => items.map (·.display)
    | v => [v.display]

/-- Whether a value is literally false. -/
def isFalse : Option Json → Bool
  | some (.bool b) => !b
  | _ => false

/-- An answer that is no record with code. -/
def unexpected (answer : String) : SemanticResult :=
  ⟨.string answer, assumedConfidence, ["Response format was unexpected"], true⟩

/-- The result that a record with code stands for. -/
def ofRecord (fields : List (String × Json)) (code : Json) : Except Fault SemanticResult :=
  (readConfidence ((Json.lookup? fields "confidence").getD .null)).map fun c =>
    ⟨code, max 0 (min 100 c), readWarnings ((Json.lookup? fields "warnings").getD .null),
      !isFalse (Json.lookup? fields "requiresReview")⟩

/-- Reads an answer. -/
def read (answer : String) : Except Fault SemanticResult := do
  match ← recordIn (withoutFences answer) with
  | some fields =>
      let code := (Json.lookup? fields "code").getD .null
      if code.isTruthy then ofRecord fields code else return unexpected answer
  | none => return unexpected answer

end SemanticResult

end WebMigration
