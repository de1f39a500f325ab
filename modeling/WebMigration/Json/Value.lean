import WebMigration.Number.Binary64
import WebMigration.Text.Basic

/-!
# Structured values

Values made of scalars, lists and records whose fields keep their order.  Whole numbers and
floating-point numbers stay apart, because they are written apart.
-/

namespace WebMigration

open Number

/-- A structured value. -/
inductive Json
  | null
  | bool (value : Bool)
  | int (value : Int)
  | float (value : Binary64)
  | string (value : String)
  /-- A calendar date or a point in time, which only configuration files hold. -/
  | date (text : String)
  | list (items : List Json)
  | record (fields : List (String × Json))
  deriving Repr, Inhabited

namespace Json

/-- The value of a field; of several with one name the last counts. -/
def lookup? (fields : List (String × Json)) (name : String) : Option Json :=
  (fields.reverse.find? (·.1 == name)).map (·.2)

/-- The value of a field of a record. -/
def field? (v : Json) (name : String) : Option Json :=
  match v with
  | record fields => lookup? fields name
  | _ => none

/-- The fields with one added or, where the name occurs, replaced in place. -/
def put (fields : List (String × Json)) (name : String) (value : Json) : List (String × Json) :=
  if fields.any (·.1 == name) then
    fields.map fun f => if f.1 == name then (name, value) else f
  else fields ++ [(name, value)]

/-- The fields with the last value of each name, at the place of its first. -/
def distinct (fields : List (String × Json)) : List (String × Json) :=
  fields.foldl (fun kept f => put kept f.1 f.2) []

/-- Whether a value is null or missing. -/
def isNull : Json → Bool
  | null => true
  | _ => false

/-- Whether a condition on the value holds: null, zero, false and what is empty do not. -/
def isTruthy : Json → Bool
  | null => false
  | bool b => b
  | int n => n != 0
  | float x => !x.isZero
  | string s => !s.isEmpty
  | date _ => true
  | list items => !items.isEmpty
  | record fields => !fields.isEmpty

mutual

/-- Whether two values are equal, where a truth value equals the number that it stands for and the
order of fields does not matter. -/
def equal : Json → Json → Bool
  | null, null => true
  | bool a, bool b => a == b
  | bool a, int b => (if a then 1 else 0) == b
  | int a, bool b => a == (if b then 1 else 0)
  | bool a, float b => (Binary64.ofInt (if a then 1 else 0)).eq b
  | float a, bool b => a.eq (Binary64.ofInt (if b then 1 else 0))
  | int a, int b => a == b
  | float a, float b => a.eq b
  | int a, float b => (Binary64.ofInt a).eq b
  | float a, int b => a.eq (Binary64.ofInt b)
  | string a, string b => a == b
  | date a, date b => a == b
  | list as, list bs => equalLists as bs
  | record fs, record gs => fs.length == gs.length && equalFields fs gs
  | _, _ => false

/-- Equality of lists, item by item. -/
def equalLists : List Json → List Json → Bool
  | [], [] => true
  | a :: as, b :: bs => equal a b && equalLists as bs
  | _, _ => false

/-- Whether each field has an equal one of the same name among the others. -/
def equalFields : List (String × Json) → List (String × Json) → Bool
  | [], _ => true
  | (name, v) :: fs, gs =>
      (match gs.find? (·.1 == name) with
        | some g => equal v g.2
        | none => false) && equalFields fs gs

end

/-! ## Building values -/

def ofNat (n : Nat) : Json := int n

def strings (items : List String) : Json := list (items.map string)

/-- A text, or null. -/
def optional (s : Option String) : Json :=
  match s with
  | some s => string s
  | none => null

end Json

end WebMigration
