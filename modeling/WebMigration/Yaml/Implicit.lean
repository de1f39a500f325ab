import WebMigration.Json.Value
import WebMigration.Failure.Basic

/-!
# Implicit types

What a plain scalar stands for: null, a truth value, a number, a date, or its own text.  Numbers may
hold underscores and may be written to the base 2, 8, 10, 16 or 60.
-/

namespace WebMigration.Yaml

open Number (Binary64)

/-- Splits a sign off. -/
def signed (cs : List Char) : Bool × List Char :=
  match cs with
  | '-' :: r => (true, r)
  | '+' :: r => (false, r)
  | r => (false, r)

/-- The characters without underscores. -/
def withoutGaps (cs : List Char) : List Char := cs.filter (· != '_')

def isHexDigit (c : Char) : Bool := c.isDigit || ('a' ≤ c && c ≤ 'f') || ('A' ≤ c && c ≤ 'F')

/-- Whether a list is not empty and holds only characters of a kind or underscores. -/
def digitsOf (test : Char → Bool) (cs : List Char) : Bool :=
  !cs.isEmpty && cs.all fun c => test c || c == '_'

def digitValue (c : Char) : Nat :=
  if c.isDigit then c.toNat - 48 else if 'a' ≤ c then c.toNat - 87 else c.toNat - 55

/-- The number that digits stand for. -/
def numberOf (base : Nat) (cs : List Char) : Nat :=
  (withoutGaps cs).foldl (fun n c => n * base + digitValue c) 0

/-! ## Whole numbers -/

/-- Splits at colons. -/
def atColons (cs : List Char) : List (List Char) :=
  match cs with
  | [] => [[]]
  | ':' :: r => [] :: atColons r
  | c :: r =>
      match atColons r with
      | part :: rest => (c :: part) :: rest
      | [] => [[c]]

/-- Whether digits are a place of a number to the base 60. -/
def isSixtieth (cs : List Char) : Bool :=
  match cs with
  | [a] => a.isDigit
  | [a, b] => '0' ≤ a && a ≤ '5' && b.isDigit
  | _ => false

/-- A whole number without its sign. -/
def wholeBody? (cs : List Char) : Option Nat :=
  match cs with
  | '0' :: 'b' :: ds =>
      if digitsOf (fun c => c == '0' || c == '1') ds then some (numberOf 2 ds) else none
  | '0' :: 'x' :: ds => if digitsOf isHexDigit ds then some (numberOf 16 ds) else none
  | ['0'] => some 0
  | '0' :: ds => if digitsOf (fun c => '0' ≤ c && c ≤ '7') ds then some (numberOf 8 ds) else none
  | c :: _ =>
      match atColons cs with
      | first :: places =>
          if '1' ≤ c && c ≤ '9' && digitsOf Char.isDigit first && places.all isSixtieth then
            some (places.foldl (fun n p => n * 60 + numberOf 10 p) (numberOf 10 first))
          else none
      | [] => none
  | [] => none

def whole? (cs : List Char) : Option Int :=
  let (negative, body) := signed cs
  (wholeBody? body).map fun n => if negative then -(n : Int) else n

/-! ## Floating-point numbers -/

/-- The exponent of a number: nothing, or a letter with a signed number. -/
def exponent? (cs : List Char) : Option Int :=
  match cs with
  | [] => some 0
  | e :: s :: ds =>
      if (e == 'e' || e == 'E') && (s == '-' || s == '+') && !ds.isEmpty && ds.all Char.isDigit then
        some (if s == '-' then -(numberOf 10 ds : Int) else numberOf 10 ds)
      else none
  | _ => none

/-- A number with a point. -/
def pointed? (negative : Bool) (cs : List Char) : Option Binary64 :=
  let isPlace := fun (c : Char) => c.isDigit || c == '_'
  let before := cs.takeWhile isPlace
  match cs.dropWhile isPlace with
  | '.' :: r =>
      let places := withoutGaps (r.takeWhile isPlace)
      (exponent? (r.dropWhile isPlace)).map fun e =>
        .ofDecimal negative (numberOf 10 (before ++ places)) (e - places.length)
  | _ => none

/-- A number with a point to the base 60. -/
def sixtieths? (negative : Bool) (cs : List Char) : Option Binary64 :=
  match (atColons cs).reverse with
  | last :: places =>
      let first := places.getLast?.getD []
      let seconds := last.takeWhile (· != '.')
      let fraction := withoutGaps ((last.dropWhile (· != '.')).drop 1)
      if !places.isEmpty && last.contains '.' && fraction.all Char.isDigit && isSixtieth seconds &&
          digitsOf Char.isDigit first && first.head? != some '_' &&
          (places.dropLast).all isSixtieth then
        let whole := (places.reverse ++ [seconds]).foldl (fun n p => n * 60 + numberOf 10 p) 0
        some (.ofDecimal negative (whole * Nat.pow 10 fraction.length + numberOf 10 fraction)
          (-fraction.length))
      else none
  | [] => none

def float? (cs : List Char) : Option Binary64 :=
  let (negative, body) := signed cs
  let word := String.ofList body
  if [".inf", ".Inf", ".INF"].contains word then some (.infinite negative)
  else if [".nan", ".NaN", ".NAN"].contains (String.ofList cs) then some .nan
  else
    match body with
    | c :: r =>
        if c.isDigit then pointed? negative body <|> sixtieths? negative body
        else if c == '.' && (r.head?.map Char.isDigit).getD false && body == cs then
          pointed? false body
        else none
    | [] => none

/-! ## Dates -/

/-- Whether the first characters are of the given kinds; a digit stands for any digit. -/
def fits : List Char → List Char → Bool
  | [], [] => true
  | '0' :: p, c :: r => c.isDigit && fits p r
  | x :: p, c :: r => x == c && fits p r
  | _, _ => false

/-- Drops one digit, and a second one if it follows. -/
def oneOrTwoDigits? : List Char → Option (List Char)
  | a :: r =>
      if a.isDigit then
        match r with
        | b :: s => some (if b.isDigit then s else r)
        | [] => some r
      else none
  | [] => none

/-- Drops a character that must be there. -/
def after? (x : Char) : List Char → Option (List Char)
  | c :: r => if c == x then some r else none
  | [] => none

/-- Drops two digits. -/
def twoDigits? : List Char → Option (List Char)
  | a :: b :: r => if a.isDigit && b.isDigit then some r else none
  | _ => none

/-- Whether the rest of a point in time is a time zone or nothing. -/
def isZone (cs : List Char) : Bool :=
  let zone := fun (r : List Char) =>
    match oneOrTwoDigits? r with
    | some [] => true
    | some s => ((after? ':' s).bind twoDigits?) == some []
    | none => false
  match cs.dropWhile fun c => c == ' ' || c == '\t' with
  | [] => cs.isEmpty
  | ['Z'] => true
  | c :: r => (c == '-' || c == '+') && zone r

/-- Whether a text is a point in time. -/
def isTime (cs : List Char) : Bool :=
  let isGap := fun (c : Char) => c == ' ' || c == '\t'
  let time := do
    let r ← twoDigits? cs
    let r ← twoDigits? r
    let r ← after? '-' r
    let r ← oneOrTwoDigits? r
    let r ← after? '-' r
    let r ← oneOrTwoDigits? r
    let r ← match r with
      | c :: s =>
          if c == 'T' || c == 't' then some s
          else if isGap c then some (s.dropWhile isGap) else none
      | [] => none
    let r ← oneOrTwoDigits? r
    let r ← after? ':' r
    let r ← twoDigits? r
    let r ← after? ':' r
    let r ← twoDigits? r
    match r with
    | '.' :: s => some (s.dropWhile Char.isDigit)
    | s => some s
  (time.map isZone).getD false

/-- Whether a text is a date. -/
def isDate (cs : List Char) : Bool := fits "0000-00-00".toList cs

/-- The number of days of a month. -/
def daysIn (year month : Nat) : Nat :=
  if [4, 6, 9, 11].contains month then 30
  else if month != 2 then 31
  else if year % 4 == 0 && (year % 100 != 0 || year % 400 == 0) then 29
  else 28

/-- The date that a text stands for, which must exist. -/
def date (cs : List Char) : Except Fault Json :=
  let parts := ((String.ofList (cs.takeWhile fun c => c.isDigit || c == '-')).splitOn "-").map
    fun p => numberOf 10 p.toList
  match parts with
  | [y, m, d] =>
      if y == 0 then .error (.value "year 0 is out of range")
      else if m < 1 || 12 < m then .error (.value "month must be in 1..12")
      else if d < 1 || daysIn y m < d then .error (.value "day is out of range for month")
      else .ok (.date (String.ofList cs))
  | _ => .ok (.date (String.ofList cs))

/-! ## All types -/

/-- The words for the two truth values. -/
def truth? (s : String) : Option Bool :=
  if ["yes", "Yes", "YES", "true", "True", "TRUE", "on", "On", "ON"].contains s then some true
  else if ["no", "No", "NO", "false", "False", "FALSE", "off", "Off", "OFF"].contains s then
    some false
  else none

def isNull (s : String) : Bool := ["", "~", "null", "Null", "NULL"].contains s

/-- What a plain scalar stands for.  The marks of merges and of defaults stand for nothing. -/
def implicit (s : String) : Except Fault Json :=
  let cs := s.toList
  match truth? s, float? cs, whole? cs with
  | some b, _, _ => .ok (.bool b)
  | none, some x, _ => .ok (.float x)
  | none, none, some n => .ok (.int n)
  | none, none, none =>
      if isNull s then .ok .null
      else if isDate cs || isTime cs then date cs
      else if s == "<<" || s == "=" then .error (.of .unreadableDocument "")
      else .ok (.string s)

end WebMigration.Yaml
