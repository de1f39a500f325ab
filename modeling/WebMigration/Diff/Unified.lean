import WebMigration.Diff.Alignment
import WebMigration.Text.Basic

/-!
# Unified diffs

The difference of two texts as hunks of changed lines with three lines of context, and the numbers of
added and removed lines that a diff shows.
-/

namespace WebMigration.Diff

/-- A part of an alignment with the numbers of lines of both texts before it. -/
structure Placed where
  oldStart : Nat
  newStart : Nat
  part : Part
  deriving DecidableEq, Repr

/-- The parts with their places. -/
def place (oldStart newStart : Nat) : List Part → List Placed
  | [] => []
  | p :: rest =>
      ⟨oldStart, newStart, p⟩ ::
        place (oldStart + p.old.length) (newStart + p.new.length) rest

/-- The number of lines of context around a change. -/
def context : Nat := 3

/-- A kept part without its first lines, except for the last ones. -/
def Placed.lastLines (p : Placed) : Placed :=
  match p.part with
  | .keep lines =>
      let n := lines.length - context
      ⟨p.oldStart + n, p.newStart + n, .keep (lines.drop n)⟩
  | _ => p

/-- A kept part without its last lines, except for the first ones. -/
def Placed.firstLines (p : Placed) : Placed :=
  match p.part with
  | .keep lines => { p with part := .keep (lines.take context) }
  | _ => p

/-- Groups the parts into hunks: a kept part that is longer than the context of two hunks parts them.
`group` is the current hunk in reverse. -/
def hunksFrom (group : List Placed) : List Placed → List (List Placed)
  | [] => [group.reverse]
  | p :: rest =>
      match p.part with
      | .keep lines =>
          if 2 * context < lines.length then
            (p.firstLines :: group).reverse :: hunksFrom [p.lastLines] rest
          else hunksFrom (p :: group) rest
      | _ => hunksFrom (p :: group) rest

/-- Applies a function to the first item. -/
def onFirst {α : Type} (f : α → α) : List α → List α
  | [] => []
  | a :: rest => f a :: rest

/-- Applies a function to the last item. -/
def onLast {α : Type} (f : α → α) (items : List α) : List α := (onFirst f items.reverse).reverse

/-- Whether a hunk shows a change. -/
def showsChange (hunk : List Placed) : Bool :=
  hunk.any fun p => match p.part with
    | .replace .. => true
    | .keep _ => false

/-- The hunks of an alignment. -/
def hunks (parts : List Part) : List (List Placed) :=
  (hunksFrom [] (onLast Placed.firstLines (onFirst Placed.lastLines (place 0 0 parts)))).filter
    showsChange

/-- A range of lines as the head of a hunk names it. -/
def range (start length : Nat) : String :=
  if length == 1 then toString (start + 1)
  else if length == 0 then toString start ++ ",0"
  else toString (start + 1) ++ "," ++ toString length

/-- The head of a hunk. -/
def head (hunk : List Placed) : String :=
  let start := (hunk.head?.map fun p => (p.oldStart, p.newStart)).getD (0, 0)
  let total := fun (f : Part → List String) => hunk.foldl (fun n p => n + (f p.part).length) 0
  "@@ -" ++ range start.1 (total Part.old) ++ " +" ++ range start.2 (total Part.new) ++ " @@\n"

/-- The lines of a part, each with its mark. -/
def marked : Part → List String
  | .keep lines => lines.map (" " ++ ·)
  | .replace removed added => removed.map ("-" ++ ·) ++ added.map ("+" ++ ·)

/-- The lines of a hunk. -/
def hunkLines (hunk : List Placed) : List String := head hunk :: hunk.flatMap fun p => marked p.part

/-- The difference of two texts. -/
def unified (original changed : String) : String :=
  let hs := hunks (align (Text.linesKeepingEnds original) (Text.linesKeepingEnds changed))
  if hs.isEmpty then ""
  else String.join ("--- original\n" :: "+++ transformed\n" :: hs.flatMap hunkLines)

/-- Whether a line of a diff starts with a mark once, and not as the head of the diff does. -/
def isMarked (mark line : String) : Bool :=
  Text.startsWith mark line && !Text.startsWith (mark ++ mark ++ mark) line

/-- The numbers of added and removed lines that a diff shows. -/
def counts (diff : String) : Nat × Nat :=
  let lines := Text.lines diff
  (lines.countP (isMarked "+"), lines.countP (isMarked "-"))

end WebMigration.Diff
