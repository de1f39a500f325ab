/-!
# Aligning texts

Which lines of two texts are the same lines.  The longest run of equal lines is aligned first, the
earliest one of several, and then what stands before and after it.  Runs are found by lines that are
not too frequent, and then extended by any equal lines around them.
-/

namespace WebMigration.Diff

/-- A part of the alignment of two texts. -/
inductive Part
  /-- Lines that both texts have. -/
  | keep (lines : List String)
  /-- Lines of the first text, and the lines of the second one in their place. -/
  | replace (removed added : List String)
  deriving DecidableEq, Repr

namespace Part

/-- The lines of the first text. -/
def old : Part → List String
  | keep lines => lines
  | replace removed _ => removed

/-- The lines of the second text. -/
def new : Part → List String
  | keep lines => lines
  | replace _ added => added

end Part

/-- A run of equal lines: where it starts in both texts, and its length. -/
structure Match where
  left : Nat
  right : Nat
  size : Nat
  deriving DecidableEq, Repr

/-- The lengths of the runs that end at one line of the first text and each line of the second. -/
def runLengths (frequent : String → Bool) (line : String) : Nat → List Nat → List String → List Nat
  | _, _, [] => []
  | diagonal, above, b :: bs =>
      (if line == b && !frequent b then diagonal + 1 else 0) ::
        runLengths frequent line (above.head?.getD 0) (above.drop 1) bs

/-- The better of the best run so far and the runs that end at line `i` of the first text and at the
lines from `j` on of the second. -/
def bestInRow (i : Nat) : Nat → List Nat → Match → Match
  | _, [], best => best
  | j, k :: ks, best =>
      bestInRow i (j + 1) ks (if best.size < k then ⟨i + 1 - k, j + 1 - k, k⟩ else best)

/-- The longest run of lines that are not too frequent. -/
def bestRun (frequent : String → Bool) (right : List String) :
    Nat → List Nat → List String → Match → Match
  | _, _, [], best => best
  | i, above, a :: rest, best =>
      let lengths := runLengths frequent a 0 above right
      bestRun frequent right (i + 1) lengths rest (bestInRow i 0 lengths best)

/-- The number of equal lines at the start of two lists. -/
def commonStart : List String → List String → Nat
  | a :: as, b :: bs => if a == b then commonStart as bs + 1 else 0
  | _, _ => 0

/-- A run extended by the equal lines before and after it. -/
def Match.extended (m : Match) (left right : List String) : Match :=
  let before := commonStart (left.take m.left).reverse (right.take m.right).reverse
  let start : Match := ⟨m.left - before, m.right - before, m.size + before⟩
  let after := commonStart (left.drop (start.left + start.size)) (right.drop (start.right + start.size))
  { start with size := start.size + after }

/-- The run that is aligned first. -/
def longestMatch (frequent : String → Bool) (left right : List String) : Match :=
  (bestRun frequent right 0 [] left ⟨0, 0, 0⟩).extended left right

/-- The alignment of two lists of lines; `fuel` bounds the number of runs on the way to each part. -/
def alignUpTo (frequent : String → Bool) : Nat → List String → List String → List Part
  | 0, left, right => [.replace left right]
  | fuel + 1, left, right =>
      let m := longestMatch frequent left right
      if m.size == 0 then
        if left.isEmpty && right.isEmpty then [] else [.replace left right]
      else
        alignUpTo frequent fuel (left.take m.left) (right.take m.right) ++
          .keep ((left.drop m.left).take m.size) ::
          alignUpTo frequent fuel (left.drop (m.left + m.size)) (right.drop (m.right + m.size))

/-- The alignment in which no two parts that are kept stand side by side. -/
def joined : List Part → List Part
  | .keep a :: rest =>
      match joined rest with
      | .keep b :: more => .keep (a ++ b) :: more
      | parts => .keep a :: parts
  | p :: rest => p :: joined rest
  | [] => []

/-- Whether a line of a text is too frequent to start a run: it makes up more than a hundredth of a
text of 200 lines or more. -/
def isFrequent (lines : List String) (line : String) : Bool :=
  200 ≤ lines.length && lines.length / 100 + 1 < lines.count line

/-- The alignment of two lists of lines. -/
def align (left right : List String) : List Part :=
  let frequent := (right.eraseDups).filter (isFrequent right)
  joined (alignUpTo frequent.contains (left.length + 1) left right)

end WebMigration.Diff
