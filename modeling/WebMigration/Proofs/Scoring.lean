import Mathlib.Algebra.Order.Round
import Mathlib.Data.Rat.Floor
import Mathlib.Tactic.Linarith
import Mathlib.Tactic.NormNum
import WebMigration.Scoring

/-!
# Scores in their range

The score of the checks and the confidence in a result are numbers from 0 to 100, and neither rises when
something gets worse.  The blend of both scores is never halfway between two integers, so that the
confidence is the nearest integer to it.
-/

namespace WebMigration.Scoring

open Number

/-! ### The range -/

theorem clamp_nonneg (n : Int) : 0 ≤ clamp n := by
  unfold clamp
  omega

theorem clamp_le (n : Int) : clamp n ≤ 100 := by
  unfold clamp
  omega

theorem clamp_mono {m n : Int} (h : m ≤ n) : clamp m ≤ clamp n := by
  unfold clamp
  omega

/-! ### The score of the checks -/

/-- Checks that count things. -/
structure Checks.Counted (c : Checks) : Prop where
  violations : 0 ≤ c.violations
  errors : 0 ≤ c.errors
  warnings : 0 ≤ c.warnings

/-- No check passes that did not pass before, and nothing is counted less often. -/
structure Checks.Worse (c d : Checks) : Prop where
  syntaxValid : d.syntaxValid = true → c.syntaxValid = true
  equivalent : d.equivalent = true → c.equivalent = true
  importsResolved : d.importsResolved = true → c.importsResolved = true
  oldReferencesGone : d.oldReferencesGone = true → c.oldReferencesGone = true
  violations : c.violations ≤ d.violations
  errors : c.errors ≤ d.errors
  warnings : c.warnings ≤ d.warnings

theorem points_mono {p q : Bool} {n : Int} (hn : 0 ≤ n) (h : q = true → p = true) :
    points q n ≤ points p n := by
  cases q with
  | true =>
    rw [h rfl]
  | false =>
    cases p with
    | true => simpa [points] using hn
    | false => exact le_rfl

/-- The bonus goes with the first violation or warning, and does not come back. -/
theorem clean_of_clean {c d : Checks} (hc : c.Counted) (h : c.Worse d) :
    (d.violations == 0 && d.warnings == 0) = true → (c.violations == 0 && c.warnings == 0) = true := by
  obtain ⟨hviolations, -, hwarnings⟩ := hc
  have hmore := h.violations
  have hmoreWarnings := h.warnings
  simp only [Bool.and_eq_true, beq_iff_eq]
  omega

theorem validationScore_mono {c d : Checks} (hc : c.Counted) (h : c.Worse d) :
    validationScore d ≤ validationScore c := by
  apply clamp_mono
  have hsyntax := points_mono (n := 30) (by decide) h.syntaxValid
  have hequivalent := points_mono (n := 30) (by decide) h.equivalent
  have himports := points_mono (n := 20) (by decide) h.importsResolved
  have hreferences := points_mono (n := 10) (by decide) h.oldReferencesGone
  have hclean := points_mono (n := 10) (by decide) (clean_of_clean hc h)
  have herrors := h.errors
  have hwarnings := h.warnings
  unfold rawScore
  omega

/-! ### The blend -/

/-- Three fifths of a score, less what is taken off for an invalid file and for errors, and two fifths of
the confidence of the semantic pass. -/
def blended (score : Int) (valid : Bool) (semantic passErrors : Int) : ℚ :=
  3 / 5 * (score - (if valid then 0 else 20) - 5 * passErrors) + 2 / 5 * semantic

theorem blended_eq (score : Int) (valid : Bool) (semantic passErrors : Int) :
    blended score valid semantic passErrors =
      ((3 * penalized score valid passErrors + 2 * semantic : Int) : ℚ) / 5 := by
  unfold blended penalized points
  cases valid <;> push_cast <;> simp <;> ring

/-- A number of fifths is never halfway between two integers. -/
theorem fifth_ne_half (k n : Int) : (k : ℚ) / 5 ≠ n + 1 / 2 := by
  intro h
  have htwice : 2 * k = 10 * n + 5 := by
    have hcast : (2 * k : ℚ) = 10 * n + 5 := by linarith
    exact_mod_cast hcast
  omega

theorem roundQuotient_tenths (k : Int) : roundQuotient (2 * k) 10 = round ((k : ℚ) / 5) := by
  have hbounds : 10 * roundQuotient (2 * k) 10 ≤ 2 * k + 5 ∧
      2 * k + 5 < 10 * roundQuotient (2 * k) 10 + 10 := by
    unfold roundQuotient roundHalfUp
    dsimp only
    split <;> split <;> omega
  obtain ⟨hlow, hhigh⟩ := hbounds
  have hlow' : (10 * roundQuotient (2 * k) 10 : ℚ) ≤ 2 * k + 5 := by exact_mod_cast hlow
  have hhigh' : (2 * k + 5 : ℚ) < 10 * roundQuotient (2 * k) 10 + 10 := by exact_mod_cast hhigh
  rw [round_eq, eq_comm, Int.floor_eq_iff]
  constructor <;> linarith

theorem round_mono {x y : ℚ} (h : x ≤ y) : round x ≤ round y := by
  rw [round_eq, round_eq]
  exact Int.floor_mono (by linarith)

/-- The confidence in a result without limits on the size of numbers. -/
def exactConfidence (score : Int) (valid : Bool) (semantic passErrors : Int) : Int :=
  clamp (round (blended score valid semantic passErrors))

/-- No argument is in favour of the second result. -/
structure Lower (score score' : Int) (valid valid' : Bool) (semantic semantic' passErrors passErrors' : Int) :
    Prop where
  score : score' ≤ score
  valid : valid' = true → valid = true
  semantic : semantic' ≤ semantic
  passErrors : passErrors ≤ passErrors'

theorem blended_mono {score score' : Int} {valid valid' : Bool}
    {semantic semantic' passErrors passErrors' : Int}
    (h : Lower score score' valid valid' semantic semantic' passErrors passErrors') :
    blended score' valid' semantic' passErrors' ≤ blended score valid semantic passErrors := by
  obtain ⟨hscore, hvalid, hsemantic, herrors⟩ := h
  have hscore' : (score' : ℚ) ≤ score := by exact_mod_cast hscore
  have hsemantic' : (semantic' : ℚ) ≤ semantic := by exact_mod_cast hsemantic
  have herrors' : (passErrors : ℚ) ≤ passErrors' := by exact_mod_cast herrors
  have hpenalty : (if valid then (0 : ℚ) else 20) ≤ if valid' then 0 else 20 := by
    cases valid' with
    | true => rw [hvalid rfl]
    | false => split <;> norm_num
  unfold blended
  linarith

theorem exactConfidence_mono {score score' : Int} {valid valid' : Bool}
    {semantic semantic' passErrors passErrors' : Int}
    (h : Lower score score' valid valid' semantic semantic' passErrors passErrors') :
    exactConfidence score' valid' semantic' passErrors' ≤ exactConfidence score valid semantic passErrors :=
  clamp_mono (round_mono (blended_mono h))

/-- The program finds the exact confidence, unless a number gets too large on the way. -/
theorem confidence_eq (score : Int) (valid : Bool) (semantic passErrors : Int) :
    confidence score valid semantic passErrors =
      if Nat.pow 2 1024 ≤ (penalized score valid passErrors).natAbs ∨
          Nat.pow 2 1024 ≤ semantic.natAbs then
        .error (.of .overflow "")
      else if Nat.pow 10 28 ≤ (round (blended score valid semantic passErrors)).natAbs then
        .error (.of .imprecise "")
      else .ok (exactConfidence score valid semantic passErrors) := by
  have hround : roundQuotient (6 * penalized score valid passErrors + 4 * semantic) 10 =
      round (blended score valid semantic passErrors) := by
    rw [blended_eq, ← roundQuotient_tenths]
    congr 1
    omega
  unfold confidence blend roundExactly
  rw [hround]
  -- The limits are not to be computed.
  generalize Nat.pow 2 1024 = large
  generalize Nat.pow 10 28 = long
  simp only [Bool.or_eq_true, decide_eq_true_eq]
  split
  · rfl
  · split <;> rfl

/-! ### Both scores -/

/-- The score of the checks lies between 0 and 100 and never rises when a check fails or something is
counted once more.  So does the confidence, in exact arithmetic: it never rises when a score falls, the
file turns invalid or errors are added, and it is the integer nearest to the blend of both scores, which
is never halfway between two.  The program finds it unless a number is too large for its arithmetic. -/
theorem scores_bounded_monotone :
    (∀ c, 0 ≤ validationScore c ∧ validationScore c ≤ 100) ∧
    (∀ c d : Checks, c.Counted → c.Worse d → validationScore d ≤ validationScore c) ∧
    (∀ score valid semantic passErrors, 0 ≤ exactConfidence score valid semantic passErrors ∧
      exactConfidence score valid semantic passErrors ≤ 100) ∧
    (∀ score score' valid valid' semantic semantic' passErrors passErrors',
      Lower score score' valid valid' semantic semantic' passErrors passErrors' →
      exactConfidence score' valid' semantic' passErrors' ≤
        exactConfidence score valid semantic passErrors) ∧
    ∀ score valid semantic passErrors,
      (∀ n : Int, blended score valid semantic passErrors ≠ n + 1 / 2) ∧
      exactConfidence score valid semantic passErrors =
        clamp (round (blended score valid semantic passErrors)) ∧
      confidence score valid semantic passErrors =
        if Nat.pow 2 1024 ≤ (penalized score valid passErrors).natAbs ∨
            Nat.pow 2 1024 ≤ semantic.natAbs then
          .error (.of .overflow "")
        else if Nat.pow 10 28 ≤ (round (blended score valid semantic passErrors)).natAbs then
          .error (.of .imprecise "")
        else .ok (exactConfidence score valid semantic passErrors) := by
  refine ⟨fun c => ⟨clamp_nonneg _, clamp_le _⟩, fun c d hc h => validationScore_mono hc h,
    fun _ _ _ _ => ⟨clamp_nonneg _, clamp_le _⟩, fun _ _ _ _ _ _ _ _ h => exactConfidence_mono h, ?_⟩
  intro score valid semantic passErrors
  refine ⟨fun n => ?_, rfl, confidence_eq score valid semantic passErrors⟩
  rw [blended_eq]
  exact fifth_ne_half _ n

end WebMigration.Scoring
