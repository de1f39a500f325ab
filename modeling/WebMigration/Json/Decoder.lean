import WebMigration.Failure.Basic

/-!
# Reading documents into types

A decoder reads a structured value as a value of a type, or lists everything that is wrong with it.
The problems of the fields of a record are collected in the order of the fields.  Texts are never
made from numbers, but numbers and truth values are also read from texts and from each other where
nothing is lost.
-/

namespace WebMigration

open Number

/-- A value read from a document, or the problems found. -/
abbrev Decoded (α : Type) := Except (List Problem) α

/-- A reader of values of a type. -/
abbrev Decoder (α : Type) := Json → Decoded α

namespace Decoded

variable {α β : Type}

/-- A single problem at the value itself. -/
def problem (kind : ProblemKind) : Decoded α := .error [⟨[], kind⟩]

/-- Puts the problems below a step. -/
def under (step : PathStep) (d : Decoded α) : Decoded α :=
  match d with
  | .ok a => .ok a
  | .error ps => .error (ps.map fun p => { p with path := step :: p.path })

/-- Applies a function that was read to an argument that was read; the problems of both count. -/
def apply (f : Decoded (α → β)) (a : Decoded α) : Decoded β :=
  match f, a with
  | .ok f, .ok a => .ok (f a)
  | .ok _, .error ps => .error ps
  | .error ps, .ok _ => .error ps
  | .error ps, .error qs => .error (ps ++ qs)

/-- Every value of a list, or the problems of all of them. -/
def all : List (Decoded α) → Decoded (List α)
  | [] => .ok []
  | d :: rest => apply (apply (.ok List.cons) d) (all rest)

end Decoded

namespace Decoder

variable {α : Type}

/-- A text. -/
def text : Decoder String
  | .string s => .ok s
  | _ => Decoded.problem .notText

/-- A text or null. -/
def optionalText : Decoder (Option String)
  | .null => .ok none
  | v => (text v).map some

/-- Anything. -/
def anything : Decoder Json := .ok

/-- The words for the two truth values. -/
def truthWord? (s : String) : Option Bool :=
  let w := Text.lower s
  if ["1", "on", "t", "true", "y", "yes"].contains w then some true
  else if ["0", "off", "f", "false", "n", "no"].contains w then some false
  else none

/-- A truth value, also as a word or as one of the numbers 0 and 1. -/
def boolean : Decoder Bool
  | .bool b => .ok b
  | .string s =>
      match truthWord? s with
      | some b => .ok b
      | none => Decoded.problem .unreadableBoolean
  | .int n =>
      if n == 0 then .ok false else if n == 1 then .ok true else Decoded.problem .unreadableBoolean
  | .float x =>
      if x.isInteger then
        if x.isZero then .ok false
        else if x.eq (.ofNat 1) then .ok true
        else Decoded.problem .unreadableBoolean
      else Decoded.problem .notBoolean
  | _ => Decoded.problem .notBoolean

/-- The digits of a whole number, where single underscores may stand between digits. -/
def wholeDigits? (cs : List Char) : Option Nat :=
  go 0 false cs
where
  go (n : Nat) (afterDigit : Bool) : List Char → Option Nat
    | [] => if afterDigit then some n else none
    | '_' :: r => if afterDigit then go n false r else none
    | c :: r => (Text.digitValue? c).bind fun d => go (n * 10 + d) true r

/-- A whole number in a text with a sign and with blanks around it. -/
def wholeNumber? (s : String) : Option Int :=
  match Text.trimBoth Text.isSpace s.toList with
  | '-' :: r => (wholeDigits? r).map fun n => -(n : Int)
  | '+' :: r => (wholeDigits? r).map fun n => (n : Int)
  | r => (wholeDigits? r).map fun n => (n : Int)

/-- A text without a point that only zeros follow. -/
def withoutZeroFraction (s : String) : String :=
  let cs := Text.trimBoth Text.isSpace s.toList
  let fraction := (cs.dropWhile (· != '.')).drop 1
  if !fraction.isEmpty && fraction.all (· == '0') then String.ofList (cs.takeWhile (· != '.'))
  else s

/-- A whole number, also as a text, a truth value or a floating-point number without fraction. -/
def integer : Decoder Int
  | .int n => .ok n
  | .bool b => .ok (if b then 1 else 0)
  | .float x =>
      match x.truncate? with
      | some n => if x.isInteger then .ok n else Decoded.problem .fractionalInteger
      | none => Decoded.problem .nonFiniteNumber
  | .string s =>
      match wholeNumber? (withoutZeroFraction s) with
      | some n => .ok n
      | none => Decoded.problem .unreadableInteger
  | _ => Decoded.problem .notInteger

/-- A floating-point number in a text. -/
def floatText? (s : String) : Option Binary64 :=
  let cs := Text.trimBoth Text.isSpace s.toList
  let (negative, body) := match cs with
    | '-' :: r => (true, r)
    | '+' :: r => (false, r)
    | r => (false, r)
  let word := Text.lower (String.ofList body)
  if word == "inf" || word == "infinity" then some (.infinite negative)
  else if word == "nan" then some .nan
  else
    let whole := body.takeWhile Char.isDigit
    let rest := body.dropWhile Char.isDigit
    let (places, rest) := match rest with
      | '.' :: r => (r.takeWhile Char.isDigit, r.dropWhile Char.isDigit)
      | r => ([], r)
    let digits := (whole ++ places).foldl (fun n c => n * 10 + (c.toNat - 48)) 0
    let scale : Option Int := match rest with
      | [] => some 0
      | e :: r => if e == 'e' || e == 'E' then wholeNumber? (String.ofList r) else none
    if (whole ++ places).isEmpty then none
    else scale.map fun e => Binary64.ofDecimal negative digits (e - places.length)

/-- A floating-point number, also as a text, a whole number or a truth value. -/
def real : Decoder Binary64
  | .float x => .ok x
  | .int n => .ok (.ofInt n)
  | .bool b => .ok (.ofNat (if b then 1 else 0))
  | .string s =>
      match floatText? s with
      | some x => .ok x
      | none => Decoded.problem .unreadableNumber
  | _ => Decoded.problem .notNumber

/-- A list of values. -/
def list (item : Decoder α) : Decoder (List α)
  | .list items => Decoded.all (items.mapIdx fun i v => Decoded.under (.index i) (item v))
  | _ => Decoded.problem .notList

/-- A table of values. -/
def table (item : Decoder α) : Decoder (List (String × α))
  | .record fields =>
      Decoded.all (fields.map fun f =>
        Decoded.under (.field f.1) ((item f.2).map fun a => (f.1, a)))
  | _ => Decoded.problem .notMapping

/-- A reader of the fields of a record. -/
def Fields (α : Type) : Type := List (String × Json) → Decoded α

instance : Applicative Fields where
  pure a := fun _ => .ok a
  seq f a := fun fields => Decoded.apply (f fields) (a () fields)

/-- A record with known fields. -/
def model (fields : Fields α) : Decoder α
  | .record fs => fields fs
  | _ => Decoded.problem .notModel

/-- The first spelling that occurs among the fields, with its value. -/
def firstSpelled? (spellings : List String) (fields : List (String × Json)) :
    Option (String × Json) :=
  spellings.findSome? fun s => (Json.lookup? fields s).map fun v => (s, v)

/-- A field under the first of its spellings that occurs, or a default. -/
def field (spellings : List String) (default : α) (item : Decoder α) : Fields α := fun fields =>
  match firstSpelled? spellings fields with
  | some (s, v) => Decoded.under (.field s) (item v)
  | none => .ok default

/-- A field that must occur under one of its spellings. -/
def required (spellings : List String) (item : Decoder α) : Fields α := fun fields =>
  match firstSpelled? spellings fields with
  | some (s, v) => Decoded.under (.field s) (item v)
  | none => .error [⟨[.field (spellings.head?.getD "")], .missing⟩]

/-- A value that must not be less than a bound. -/
def atLeast (low : Int) (item : Decoder Int) : Decoder Int := fun v => do
  let n ← item v
  if n < low then Decoded.problem .tooSmall else .ok n

/-- A value that must not be greater than a bound. -/
def atMost (high : Int) (item : Decoder Int) : Decoder Int := fun v => do
  let n ← item v
  if high < n then Decoded.problem .tooLarge else .ok n

/-- A floating-point value that must not be less than a bound. -/
def realAtLeast (low : Nat) (item : Decoder Binary64) : Decoder Binary64 := fun v => do
  let x ← item v
  if (Binary64.ofNat low).le x then .ok x else Decoded.problem .tooSmall

end Decoder

end WebMigration
