import Mathlib.Algebra.Order.Field.Power
import Mathlib.Data.Rat.Cast.Order
import Mathlib.Tactic.Linarith
import Mathlib.Tactic.NormNum
import Mathlib.Tactic.Ring
import WebMigration.Number.Binary64

/-!
# Which quotients are too large for a number

A quotient of naturals is rounded to infinity exactly from half a unit above the greatest number on:
a tie between the greatest number and the next power of two goes to the power, which is even.
-/

namespace WebMigration.Number

/-! ### Rounding -/

/-- The rest, compared with half a unit, decides how a quotient is rounded. -/
theorem roundEven_cases (num den : Nat) :
    2 * (num % den) < den ∧ roundEven num den = num / den ∨
      2 * (num % den) = den ∧ roundEven num den = num / den + num / den % 2 ∨
      den < 2 * (num % den) ∧ roundEven num den = num / den + 1 := by
  unfold roundEven
  dsimp only
  split
  · omega
  · split
    · omega
    · split
      · rename_i heven
        rw [beq_iff_eq] at heven
        omega
      · rename_i hodd
        rw [beq_iff_eq] at hodd
        omega

theorem roundEven_le (num den : Nat) : roundEven num den ≤ num / den + 1 := by
  have hcases := roundEven_cases num den
  omega

/-- An even number is reached from half a unit below it on. -/
theorem le_roundEven_iff {num den k : Nat} (hden : 0 < den) (hk : k % 2 = 0) :
    k ≤ roundEven num den ↔ 2 * k * den ≤ 2 * num + den := by
  have hcases := roundEven_cases num den
  have hnum : den * (num / den) + num % den = num := Nat.div_add_mod num den
  have hrest : num % den < den := Nat.mod_lt num hden
  generalize roundEven num den = n at hcases ⊢
  generalize num / den = q at hcases hnum
  generalize num % den = r at hcases hnum hrest
  subst hnum
  rcases Nat.lt_trichotomy k (q + 1) with h | h | h
  · have hle : k * den ≤ den * q := by
      rw [Nat.mul_comm k]
      exact Nat.mul_le_mul_left den (by omega)
    exact iff_of_true (by omega) (by rw [Nat.mul_assoc]; omega)
  · subst h
    have hprod : 2 * (q + 1) * den = 2 * (den * q) + 2 * den := by ring
    rw [hprod]
    omega
  · have hle : den * q + 2 * den ≤ k * den := by
      calc den * q + 2 * den = (q + 2) * den := by ring
        _ ≤ k * den := Nat.mul_le_mul_right den (by omega)
    exact iff_of_false (by omega) (by rw [Nat.mul_assoc]; omega)

namespace Binary64

/-! ### Powers of two -/

theorem powers_snd_pos (e : Int) : 0 < (powers e).2 := by
  unfold powers
  split
  · exact Nat.one_pos
  · exact Nat.two_pow_pos _

theorem powers_natCast_succ (n : Nat) : powers ((n : Int) + 1) = (2 * 2 ^ n, 1) := by
  unfold powers
  rw [if_pos (by omega), show ((n : Int) + 1).toNat = n + 1 from rfl, ← pow_succ']
  rfl

/-- The two factors stand for the power. -/
theorem powers_fst_eq (e : Int) : ((powers e).1 : ℚ) = 2 ^ e * (powers e).2 := by
  unfold powers
  split
  · rename_i h
    obtain ⟨n, rfl⟩ := Int.eq_ofNat_of_zero_le h
    simp
  · rename_i h
    obtain ⟨n, hn⟩ := Int.eq_ofNat_of_zero_le (show 0 ≤ -e by omega)
    obtain rfl : e = -n := by omega
    simp

/-- Comparing with the factors is comparing with the power. -/
theorem lt_powers_iff {num den : Nat} (hden : 0 < den) (e : Int) :
    num * (powers e).2 < den * (powers e).1 ↔ (num : ℚ) / den < 2 ^ e := by
  have hdown : (0 : ℚ) < (powers e).2 := by exact_mod_cast powers_snd_pos e
  have hden' : (0 : ℚ) < den := by exact_mod_cast hden
  rw [div_lt_iff₀ hden', ← mul_lt_mul_iff_left₀ hdown, mul_assoc, mul_comm (den : ℚ), ← mul_assoc,
    ← powers_fst_eq, mul_comm ((powers e).1 : ℚ)]
  exact_mod_cast Iff.rfl

/-- A natural number lies between the powers at its logarithm. -/
theorem log2_bounds {n : Nat} (hn : 0 < n) :
    (2 : ℚ) ^ (n.log2 : Int) ≤ n ∧ (n : ℚ) < 2 ^ ((n.log2 : Int) + 1) := by
  constructor
  · exact_mod_cast Nat.log2_self_le hn.ne'
  · exact_mod_cast (Nat.lt_log2_self : n < 2 ^ (n.log2 + 1))

/-- The magnitude of a positive quotient is the least power above it. -/
theorem magnitude_spec {num den : Nat} (hnum : 0 < num) (hden : 0 < den) :
    (2 : ℚ) ^ (magnitude num den - 1) ≤ num / den ∧ (num : ℚ) / den < 2 ^ magnitude num den := by
  have hden' : (0 : ℚ) < den := by exact_mod_cast hden
  obtain ⟨hnumLow, hnumHigh⟩ := log2_bounds hnum
  obtain ⟨hdenLow, hdenHigh⟩ := log2_bounds hden
  have htwo : (2 : ℚ) ≠ 0 := two_ne_zero
  -- The difference of the logarithms is off by at most one.
  have hlow : (2 : ℚ) ^ ((num.log2 : Int) - den.log2 - 1) ≤ num / den := by
    rw [le_div_iff₀ hden']
    calc (2 : ℚ) ^ ((num.log2 : Int) - den.log2 - 1) * den
        ≤ 2 ^ ((num.log2 : Int) - den.log2 - 1) * 2 ^ ((den.log2 : Int) + 1) := by gcongr
      _ = 2 ^ (num.log2 : Int) := by
        rw [← zpow_add₀ htwo]
        congr 1
        ring
      _ ≤ num := hnumLow
  have hhigh : (num : ℚ) / den < 2 ^ ((num.log2 : Int) - den.log2 + 1) := by
    rw [div_lt_iff₀ hden']
    calc (num : ℚ) < 2 ^ ((num.log2 : Int) + 1) := hnumHigh
      _ = 2 ^ ((num.log2 : Int) - den.log2 + 1) * 2 ^ (den.log2 : Int) := by
        rw [← zpow_add₀ htwo]
        congr 1
        ring
      _ ≤ 2 ^ ((num.log2 : Int) - den.log2 + 1) * den := by gcongr
  unfold magnitude
  dsimp only
  split
  · rename_i h
    exact ⟨hlow, (lt_powers_iff hden _).1 h⟩
  · rename_i h
    rw [lt_powers_iff hden, not_lt] at h
    refine ⟨?_, hhigh⟩
    rwa [add_sub_cancel_right]

/-! ### Overflow -/

/-- A quotient below `2 ^ 53` units, counted in halves of a unit, is rounded up to `2 ^ 53` units exactly
from one half below it on. -/
theorem roundEven_top_iff {num den half : Nat} (hden : 0 < den) (hhalf : 0 < half)
    (h : num < 2 ^ 54 * half * den) :
    roundEven num (den * (2 * half)) = Nat.pow 2 53 ↔ (2 ^ 54 - 1) * half * den ≤ num := by
  have hunit : 0 < den * (2 * half) := Nat.mul_pos hden (by omega)
  have hle : roundEven num (den * (2 * half)) ≤ 2 ^ 53 := by
    refine (roundEven_le _ _).trans ?_
    have hdiv : num / (den * (2 * half)) < 2 ^ 53 := by
      rw [Nat.div_lt_iff_lt_mul hunit]
      calc num < 2 ^ 54 * half * den := h
        _ = 2 ^ 53 * (den * (2 * half)) := by ring
    omega
  have htop : 2 * 2 ^ 53 * (den * (2 * half)) = 2 * (2 ^ 54 * (half * den)) := by ring
  have hstep : den * (2 * half) = 2 * (half * den) := by ring
  rw [show Nat.pow 2 53 = 2 ^ 53 from rfl, eq_iff_le_not_lt, and_iff_right hle, not_lt,
    le_roundEven_iff hunit (by norm_num), htop, hstep, Nat.mul_assoc]
  omega

/-- The least quotient that is rounded to infinity: half a unit above the greatest number. -/
def limit : Nat := (2 ^ 54 - 1) * 2 ^ 970

theorem limit_cast : (limit : ℚ) = (2 ^ 54 - 1) * 2 ^ (970 : Int) := by
  rw [limit, Nat.cast_mul, Nat.cast_pow, zpow_ofNat]
  norm_num

theorem lt_limit : (2 : ℚ) ^ (1023 : Int) < limit := by
  have hunit : (0 : ℚ) < 2 ^ (970 : Int) := zpow_pos two_pos 970
  rw [limit_cast, show (1023 : Int) = 53 + 970 from rfl, zpow_add₀ two_ne_zero]
  gcongr
  norm_num

theorem limit_lt : (limit : ℚ) < 2 ^ (1024 : Int) := by
  have hunit : (0 : ℚ) < 2 ^ (970 : Int) := zpow_pos two_pos 970
  rw [limit_cast, show (1024 : Int) = 54 + 970 from rfl, zpow_add₀ two_ne_zero]
  gcongr
  norm_num

theorem limit_pos : 0 < limit := by
  have h : (0 : ℚ) < limit := (zpow_pos two_pos 1023).trans lt_limit
  exact_mod_cast h

/-- Just below the power of two above the greatest number, rounding decides. -/
theorem roundEven_last_iff {num den : Nat} (hden : 0 < den) (h : (num : ℚ) / den < 2 ^ (1024 : Int)) :
    roundEven (num * (powers 971).2) (den * (powers 971).1) = Nat.pow 2 53 ↔ limit * den ≤ num := by
  have hfactors : powers 971 = (2 * 2 ^ 970, 1) := powers_natCast_succ 970
  have hbelow : num < 2 ^ 54 * 2 ^ 970 * den := by
    have hden' : (0 : ℚ) < den := by exact_mod_cast hden
    rw [div_lt_iff₀ hden', show (1024 : Int) = 54 + 970 from rfl, zpow_add₀ two_ne_zero] at h
    exact_mod_cast h
  rw [hfactors, Nat.mul_one]
  exact roundEven_top_iff hden (pow_pos two_pos 970) hbelow

/-- **A quotient is rounded to infinity exactly from the limit on.** -/
theorem isInfinite_ofQuotient_iff {num den : Nat} (hden : 0 < den) :
    (ofQuotient false num den).isInfinite = true ↔ limit * den ≤ num := by
  rcases Nat.eq_zero_or_pos num with rfl | hnum
  · refine iff_of_false ?_ (Nat.not_le.2 (Nat.mul_pos limit_pos hden))
    simp [ofQuotient, isInfinite]
  have hle : limit * den ≤ num ↔ (limit : ℚ) ≤ num / den := by
    rw [le_div_iff₀ (by exact_mod_cast hden)]
    exact_mod_cast Iff.rfl
  obtain ⟨hlow, hhigh⟩ := magnitude_spec hnum hden
  unfold ofQuotient
  rw [if_neg (by simpa using hnum.ne')]
  dsimp only
  rcases lt_trichotomy (magnitude num den) 1024 with hm | hm | hm
  · -- Far below: whatever is rounded up stays a number.
    have hsmall : (num : ℚ) / den < limit :=
      calc (num : ℚ) / den < 2 ^ magnitude num den := hhigh
        _ ≤ 2 ^ (1023 : Int) := zpow_le_zpow_right₀ one_le_two (by omega)
        _ < limit := lt_limit
    refine iff_of_false ?_ (mt hle.1 (not_le.2 hsmall))
    split
    · rw [if_neg (by omega)]
      exact Bool.false_ne_true
    · rw [if_neg (by omega)]
      exact Bool.false_ne_true
  · rw [hm] at hhigh
    rw [hm, show max ((1024 : Int) - 53) (-1074) = 971 from rfl, ← roundEven_last_iff hden hhigh]
    by_cases hround : roundEven (num * (powers 971).2) (den * (powers 971).1) = Nat.pow 2 53
    · rw [if_pos (beq_iff_eq.2 hround)]
      exact iff_of_true rfl hround
    · rw [if_neg (mt beq_iff_eq.1 hround)]
      exact iff_of_false Bool.false_ne_true hround
  · -- Far above: the exponent is too large before rounding.
    have hlarge : (limit : ℚ) ≤ num / den :=
      calc (limit : ℚ) ≤ 2 ^ (1024 : Int) := limit_lt.le
        _ ≤ 2 ^ (magnitude num den - 1) := zpow_le_zpow_right₀ one_le_two (by omega)
        _ ≤ num / den := hlow
    refine iff_of_true ?_ (hle.2 hlarge)
    split
    · rw [if_pos (by omega)]
      rfl
    · rw [if_pos (by omega)]
      rfl

end Binary64

end WebMigration.Number
