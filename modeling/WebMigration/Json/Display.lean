import WebMigration.Json.Value

/-!
# Showing structured values

Values as a listing shows them: texts inside of other values in quotes, records with their names in
quotes, truth values and null as capitalised words.
-/

namespace WebMigration.Json

/-- How floating-point numbers are shown. -/
def shownFloat (x : Number.Binary64) : String := x.text

mutual

/-- A value inside of another one. -/
def shown : Json → String
  | null => "None"
  | bool true => "True"
  | bool false => "False"
  | int n => toString n
  | float x => shownFloat x
  | string s => Text.quoted s
  | date text => text
  | list items => "[" ++ shownItems items ++ "]"
  | record fields => "\x7b" ++ shownFields fields ++ "\x7d"

def shownItems : List Json → String
  | [] => ""
  | [v] => shown v
  | v :: rest => shown v ++ ", " ++ shownItems rest

def shownFields : List (String × Json) → String
  | [] => ""
  | [(name, v)] => Text.quoted name ++ ": " ++ shown v
  | (name, v) :: rest => Text.quoted name ++ ": " ++ shown v ++ ", " ++ shownFields rest

end

mutual

/-- The value in which every record has each name once, with its last value at its first place. -/
def settled : Json → Json
  | list items => list (settledItems items)
  | record fields => record (distinct (settledFields fields))
  | v => v

def settledItems : List Json → List Json
  | [] => []
  | v :: rest => settled v :: settledItems rest

def settledFields : List (String × Json) → List (String × Json)
  | [] => []
  | (name, v) :: rest => (name, settled v) :: settledFields rest

end

/-- A value on its own: a text stands for itself. -/
def display : Json → String
  | string s => s
  | v => shown (settled v)

end WebMigration.Json
