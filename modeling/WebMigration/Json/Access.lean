import WebMigration.Json.Value

/-!
# Reading records leniently

The fields of records whose form is not checked: a field that is missing or of another form counts as
one that is empty.
-/

namespace WebMigration.Json

/-! ## Values -/

def asText : Json → String
  | string s => s
  | _ => ""

def asText? : Json → Option String
  | string s => some s
  | _ => none

/-- A whole number; a fraction is cut off. -/
def asInteger : Json → Int
  | int n => n
  | float x => x.truncate?.getD 0
  | bool b => if b then 1 else 0
  | _ => 0

def asNumber : Json → Number.Binary64
  | int n => .ofInt n
  | float x => x
  | _ => .ofNat 0

def asItems : Json → List Json
  | list items => items
  | _ => []

def asFields : Json → List (String × Json)
  | record fields => fields
  | _ => []

/-! ## Fields -/

/-- The value of a field, or null. -/
def child (v : Json) (name : String) : Json := (v.field? name).getD null

/-- Whether a field is there and not null. -/
def has (v : Json) (name : String) : Bool := !(v.child name).isNull

/-- A text, or a default. -/
def text (v : Json) (name : String) (default : String := "") : String :=
  (v.child name).asText?.getD default

def text? (v : Json) (name : String) : Option String := (v.child name).asText?

/-- A whole number, or a default. -/
def integer (v : Json) (name : String) (default : Int := 0) : Int :=
  if v.has name then (v.child name).asInteger else default

def integer? (v : Json) (name : String) : Option Int :=
  if v.has name then some (v.child name).asInteger else none

/-- A truth value, or a default. -/
def flag (v : Json) (name : String) (default : Bool := false) : Bool :=
  if v.has name then (v.child name).isTruthy else default

/-- The items of a list. -/
def itemsOf (v : Json) (name : String) : List Json := (v.child name).asItems

/-- A list of texts. -/
def texts (v : Json) (name : String) : List String := (v.itemsOf name).map asText

/-- The fields of a record. -/
def fieldsOf (v : Json) (name : String) : List (String × Json) := (v.child name).asFields

/-- A record of texts. -/
def textFields (v : Json) (name : String) : List (String × String) :=
  (v.fieldsOf name).map fun f => (f.1, f.2.asText)

end WebMigration.Json
