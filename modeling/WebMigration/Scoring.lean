import WebMigration.Failure.Basic
import WebMigration.Number.Binary64
import WebMigration.Rules.Violation

/-!
# Scores

How far a result can be trusted, from 0 to 100, and whether someone has to look at it.  The score of
the checks is blended with the confidence of the semantic pass, three parts to two.
-/

namespace WebMigration.Scoring

open Number

/-- What the checks of a file came to. -/
structure Checks where
  syntaxValid : Bool
  equivalent : Bool
  importsResolved : Bool
  oldReferencesGone : Bool
  violations : Int
  /-- The violations that are errors. -/
  errors : Int
  warnings : Int
  deriving Repr, DecidableEq

/-- The nearest number from 0 to 100. -/
def clamp (n : Int) : Int := max 0 (min 100 n)

/-- Points for a check that passes. -/
def points (passed : Bool) (n : Int) : Int := if passed then n else 0

/-- The score before it is brought into its range. -/
def rawScore (c : Checks) : Int :=
  points c.syntaxValid 30 + points c.equivalent 30 + points c.importsResolved 20 +
    points c.oldReferencesGone 10 + points (c.violations == 0 && c.warnings == 0) 10 -
    min 30 (10 * c.errors) - min 10 (2 * c.warnings)

/-- The score of the checks of a file. -/
def validationScore (c : Checks) : Int := clamp (rawScore c)

/-- The validation score less what is taken off for an invalid file and for errors of the pass. -/
def penalized (score : Int) (valid : Bool) (passErrors : Int) : Int :=
  score - points (!valid) 20 - 5 * passErrors

/-- The nearest integer to a quotient; a tie goes away from zero. -/
def roundQuotient (num : Int) (den : Nat) : Int :=
  let n : Int := roundHalfUp num.natAbs den
  if num < 0 then -n else n

/-- The nearest integer to a quotient, if it has at most 28 digits. -/
def roundExactly (num : Int) (den : Nat) : Except Fault Int :=
  let n := roundQuotient num den
  if Nat.pow 10 28 ≤ n.natAbs then .error (.of .imprecise "") else .ok n

/-- The nearest integer to a number as its shortest decimal text gives it. -/
def roundNumber (x : Binary64) : Except Fault Int :=
  match x with
  | .finite negative _ _ =>
      let d := x.shortestDigits
      let num : Int := if negative then -d.digits else d.digits
      if 0 ≤ d.exponent then roundExactly (num * Int.ofNat (Nat.pow 10 d.exponent.toNat)) 1
      else roundExactly num (Nat.pow 10 (-d.exponent).toNat)
  | _ => .error (.of .imprecise "")

/-- The nearest integer to three fifths of one number and two fifths of another. -/
def blend (score confidence : Int) : Except Fault Int :=
  if Nat.pow 2 1024 ≤ score.natAbs || Nat.pow 2 1024 ≤ confidence.natAbs then .error (.of .overflow "")
  else roundExactly (6 * score + 4 * confidence) 10

/-- The confidence in a result. -/
def confidence (score : Int) (valid : Bool) (semantic passErrors : Int) : Except Fault Int :=
  (blend (penalized score valid passErrors) semantic).map clamp

/-- Whether someone has to look at a result. -/
def needsReview (confidence : Int) (valid semanticReview : Bool) (violations : List Violation)
    (threshold : Int) : Bool :=
  confidence < threshold || !valid || semanticReview || violations.any (·.isError)

/-- The risk of a result. -/
def risk (confidence : Int) : Int := 100 - confidence

/-- What counts of a result in the statistics of a batch. -/
structure Outcome where
  confidence : Int
  review : Bool
  warnings : Nat
  deriving Repr, DecidableEq

/-- Totals over the results of a batch. -/
structure Statistics where
  total : Nat := 0
  /-- Results with a confidence above 70. -/
  successful : Nat := 0
  review : Nat := 0
  averageConfidence : Int := 0
  warnings : Nat := 0
  /-- Results with a confidence below 50. -/
  doubtful : Nat := 0
  deriving Repr, DecidableEq

/-- The totals of some results. -/
def statistics (outcomes : List Outcome) : Statistics :=
  if outcomes.isEmpty then {}
  else
    let confidences := outcomes.foldl (fun n o => n + o.confidence) 0
    { total := outcomes.length
      successful := outcomes.countP (70 < ·.confidence)
      review := outcomes.countP (·.review)
      averageConfidence := roundQuotient confidences outcomes.length
      warnings := outcomes.foldl (fun n o => n + o.warnings) 0
      doubtful := outcomes.countP (·.confidence < 50) }

def Statistics.toJson (s : Statistics) : Json :=
  .record [("total_files", .ofNat s.total), ("successful_transformations", .ofNat s.successful),
    ("requires_review", .ofNat s.review), ("average_confidence", .int s.averageConfidence),
    ("total_warnings", .ofNat s.warnings), ("files_with_errors", .ofNat s.doubtful)]

end WebMigration.Scoring
