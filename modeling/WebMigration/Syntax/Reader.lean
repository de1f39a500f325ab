import WebMigration.Syntax.Piece
import WebMigration.Syntax.Dialect
import WebMigration.Syntax.Character

/-!
# Readers

A reader consumes a beginning of a file and answers with what it read, or fails.  A failing
alternative leaves no trace but the furthest offset at which a token was refused.  The rules of the
grammar call each other through `Reader.enter`, which spends one unit of fuel, so the grammar itself
is written without recursion and every reader ends.

A `Fragment` reads some consecutive children of a node; `node` collects fragments under a kind.
-/

namespace WebMigration.Syntax

/-- Where an expression stands. -/
structure Placement where
  /-- A statement may end after it. -/
  ends : Bool
  /-- Arrow functions in it carry no return type, since a colon has another meaning there. -/
  plainArrows : Bool
  /-- The operator `in` has another meaning there. -/
  withoutIn : Bool
  deriving Repr

namespace Placement

/-- Between brackets. -/
def enclosed : Placement := ⟨false, false, false⟩

/-- At the end of a statement. -/
def final : Placement := ⟨true, false, false⟩

end Placement

/-- The whole constructs of the grammar that other constructs contain. -/
inductive Goal
  | statement
  | block
  /-- An expression whose operators bind at least as tightly as the level. -/
  | expression (level : Nat) (placement : Placement)
  | pattern
  /-- A type whose operators bind at least as tightly as the level. -/
  | type (level : Nat) (ends : Bool)
  | markup
  deriving Repr

/-- What is left of a file, how far it was read, the comments passed (latest first), and the
furthest offset at which a token was refused. -/
structure Progress (file : List Char) where
  rest : List Char
  pos : Nat
  comments : List (Passage file)
  reach : Nat
  /-- What was read and what is left make up the file. -/
  split : ∃ before, before ++ rest = file ∧ byteSize before = pos

namespace Progress

variable {file : List Char}

/-- Nothing is read yet. -/
def start (file : List Char) : Progress file := ⟨file, 0, [], 0, [], rfl, rfl⟩

/-- Where reading goes on. -/
def offset (p : Progress file) : Offset file :=
  ⟨p.pos, p.split.imp fun _ h => ⟨p.rest, h⟩⟩

end Progress

/-- The outcome of a reader. -/
inductive Reply (file : List Char) (α : Type)
  | ok (value : α) (after : Progress file)
  | fail (reach : Nat)

/-- What readers may consult: the dialect, and the grammar below the construct being read. -/
structure Surroundings (file : List Char) where
  dialect : Dialect
  enter : Goal → Progress file → Reply file (Piece file)

/-- A reader of a value from a file. -/
def Reader (file : List Char) (α : Type) : Type :=
  Surroundings file → Progress file → Reply file α

/-- A reader of consecutive children. -/
abbrev Fragment (file : List Char) := Reader file (List (Piece file))

namespace Reader

variable {file : List Char} {α β : Type}

instance : Monad (Reader file) where
  pure a := fun _ p => .ok a p
  bind r f := fun s p =>
    match r s p with
    | .ok a p' => f a s p'
    | .fail n => .fail n

/-- Refuses what comes next. -/
def refuse : Reader file α := fun _ p => .fail (max p.reach p.pos)

/-- The first reader, or the second one from the same place when the first fails. -/
def orElse (r : Reader file α) (q : Unit → Reader file α) : Reader file α := fun s p =>
  match r s p with
  | .ok a p' => .ok a p'
  | .fail n => q () s { p with reach := n }

instance : OrElse (Reader file α) := ⟨orElse⟩

/-- The progress so far. -/
def progress : Reader file (Progress file) := fun _ p => .ok p p

def dialect : Reader file Dialect := fun s p => .ok s.dialect p

/-- Reads a whole construct. -/
def enter (goal : Goal) : Reader file (Piece file) := fun s p => s.enter goal p

/-- Whether a reader would succeed here; nothing is consumed. -/
def wouldRead (r : Reader file α) : Reader file Bool := fun s p =>
  match r s p with
  | .ok _ _ => .ok true p
  | .fail _ => .ok false p

/-- Succeeds, consuming nothing, exactly when the condition holds. -/
def when? (condition : Bool) : Reader file Unit := if condition then pure () else refuse

/-- Succeeds, consuming nothing, exactly when the reader would succeed. -/
def ahead (r : Reader file α) : Reader file Unit := do when? (← wouldRead r)

/-- Succeeds, consuming nothing, exactly when the reader would fail. -/
def notAhead (r : Reader file α) : Reader file Unit := do when? (!(← wouldRead r))

/-- Repeats a reader as long as it succeeds and consumes something, at most `fuel` times. -/
def repeatUpTo (r : Reader file α) : Nat → Reader file (List α)
  | 0 => pure []
  | fuel + 1 => fun s p =>
      match r s p with
      | .fail n => .ok [] { p with reach := n }
      | .ok a p' =>
          if p'.pos ≤ p.pos then .ok [a] p'
          else
            match repeatUpTo r fuel s p' with
            | .ok as p'' => .ok (a :: as) p''
            | .fail n => .fail n

/-- Repeats a reader as often as it succeeds. -/
def many (r : Reader file α) : Reader file (List α) := fun s p =>
  repeatUpTo r (p.rest.length + 1) s p

/-- Extends a value again and again as long as the step succeeds, at most `fuel` times. -/
def extendUpTo (step : α → Reader file α) : Nat → α → Reader file α
  | 0, a => pure a
  | fuel + 1, a => fun s p =>
      match step a s p with
      | .fail n => .ok a { p with reach := n }
      | .ok b p' => extendUpTo step fuel b s p'

/-- Extends a value as often as the step succeeds. -/
def extend (step : α → Reader file α) (a : α) : Reader file α := fun s p =>
  extendUpTo step (p.rest.length + 1) a s p

/-- The first alternative that succeeds. -/
def choice : List (Reader file α) → Reader file α
  | [] => refuse
  | r :: rs => r.orElse fun _ => choice rs

end Reader

namespace Fragment

open Reader

variable {file : List Char}

/-- One child. -/
def one (r : Reader file (Piece file)) : Fragment file := do return [← r]

/-- One child that plays a part. -/
def part (field : Field) (r : Reader file (Piece file)) : Fragment file := do
  return [(← r).as field]

/-- Fragments one after the other. -/
def seq : List (Fragment file) → Fragment file
  | [] => pure []
  | f :: fs => do
      let first ← f
      let others ← seq fs
      return first ++ others

/-- The fragment or nothing. -/
def opt (f : Fragment file) : Fragment file := f <|> pure []

/-- The fragments or nothing. -/
def optSeq (fs : List (Fragment file)) : Fragment file := opt (seq fs)

/-- The fragment any number of times. -/
def star (f : Fragment file) : Fragment file := do return (← many f).flatten

/-- The first fragment that can be read. -/
def alt (fs : List (Fragment file)) : Fragment file := choice fs

/-- The fragment once or more often, with a separator between. -/
def sepBy1 (separator f : Fragment file) : Fragment file := seq [f, star (seq [separator, f])]

/-- Gives the part to each of the fragment's children. -/
def each (field : Field) (f : Fragment file) : Fragment file := do return (← f).map (·.as field)

end Fragment

/-- A node of a kind over the children that the fragments read. -/
def node {file : List Char} (kind : Kind) (fs : List (Fragment file))
    (hkind : kind.isPlain = true := by exact Eq.refl true) : Reader file (Piece file) := do
  let before ← Reader.progress
  return .spanning kind before.offset (← Fragment.seq fs) hkind

end WebMigration.Syntax
