import Mathlib.Algebra.Order.Field.Basic
import Mathlib.Tactic.FieldSimp
import Mathlib.Tactic.GCongr
import Mathlib.Tactic.Positivity
import WebMigration.Proofs.Number.Overflow

/-!
# Rounding keeps the order

A quotient that is no greater is rounded to a number that is no greater.  So products and powers keep
the order too, as long as they are numbers.  Comparing finite numbers is comparing their values.
-/

namespace WebMigration.Number

/-! ### Rounding to a natural -/

theorem div_le_roundEven (num den : Nat) : num / den ≤ roundEven num den := by
  have hcases := roundEven_cases num den
  omega

/-- A natural is rounded to itself. -/
theorem roundEven_mul (k : Nat) {den : Nat} (hden : 0 < den) : roundEven (k * den) den = k := by
  have hcases := roundEven_cases (k * den) den
  rw [Nat.mul_mod_left, Nat.mul_div_left k hden] at hcases
  omega

/-- Quotients with the same integer part are rounded by their rests, compared with half a unit. -/
theorem roundEven_le_of_div_eq {a b c d : Nat} (hb : 0 < b) (hd : 0 < d) (hq : a / b = c / d)
    (hrest : a % b * d ≤ c % d * b) : roundEven a b ≤ roundEven c d := by
  have hcases := roundEven_cases a b
  have hcases' := roundEven_cases c d
  rw [hq] at hcases
  generalize a % b = r at hrest hcases
  generalize c % d = r' at hrest hcases'
  have hdouble : 2 * r * d ≤ 2 * r' * b := by
    rw [Nat.mul_assoc, Nat.mul_assoc]
    exact Nat.mul_le_mul_left 2 hrest
  rcases Nat.lt_trichotomy (2 * r') d with hr' | hr' | hr'
  · have hr : 2 * r < b := by
      refine @Nat.lt_of_mul_lt_mul_right d _ _ ?_
      calc 2 * r * d ≤ 2 * r' * b := hdouble
        _ < d * b := Nat.mul_lt_mul_of_pos_right hr' hb
        _ = b * d := Nat.mul_comm d b
    omega
  · have hr : 2 * r ≤ b := by
      refine @Nat.le_of_mul_le_mul_right _ _ d ?_ hd
      calc 2 * r * d ≤ 2 * r' * b := hdouble
        _ = b * d := by rw [hr', Nat.mul_comm]
    omega
  · omega

/-- Rounding to a natural keeps the order. -/
theorem roundEven_mono {a b c d : Nat} (hb : 0 < b) (hd : 0 < d) (h : a * d ≤ c * b) :
    roundEven a b ≤ roundEven c d := by
  have hdiv : a / b ≤ c / d := by
    refine (Nat.le_div_iff_mul_le hd).2 (Nat.le_of_mul_le_mul_right ?_ hb)
    calc a / b * d * b = a / b * b * d := Nat.mul_right_comm _ d b
      _ ≤ a * d := Nat.mul_le_mul_right d (Nat.div_mul_le_self a b)
      _ ≤ c * b := h
  rcases Nat.lt_or_eq_of_le hdiv with hq | hq
  · calc roundEven a b ≤ a / b + 1 := roundEven_le a b
      _ ≤ c / d := hq
      _ ≤ roundEven c d := div_le_roundEven c d
  · refine roundEven_le_of_div_eq hb hd hq ?_
    have ha : b * (a / b) + a % b = a := Nat.div_add_mod a b
    have hc : d * (c / d) + c % d = c := Nat.div_add_mod c d
    rw [← ha, ← hc, hq, Nat.add_mul, Nat.add_mul,
      show b * (c / d) * d = d * (c / d) * b by ring] at h
    omega

theorem le_roundEven {num den k : Nat} (hden : 0 < den) (h : k * den ≤ num) :
    k ≤ roundEven num den := by
  calc k = roundEven (k * den) den := (roundEven_mul k hden).symm
    _ ≤ roundEven num den := roundEven_mono hden hden (Nat.mul_le_mul_right den h)

theorem roundEven_le_of_le {num den k : Nat} (hden : 0 < den) (h : num ≤ k * den) :
    roundEven num den ≤ k := by
  calc roundEven num den ≤ roundEven (k * den) den :=
        roundEven_mono hden hden (Nat.mul_le_mul_right den h)
    _ = k := roundEven_mul k hden

/-! ### Values -/

/-- The value of a quotient. -/
def Quotient.value (q : Quotient) : ℚ := (if q.negative then -(q.num : ℚ) else q.num) / q.den

namespace Binary64

/-- The value of a finite number. -/
def value? (x : Binary64) : Option ℚ := x.quotient?.map (·.value)

theorem quotient?_finite (negative : Bool) (m : Nat) (e : Int) :
    (finite negative m e).quotient? = some ⟨negative, m * (powers e).1, (powers e).2⟩ := rfl

theorem quotient?_den_pos {x : Binary64} {q : Quotient} (h : x.quotient? = some q) : 0 < q.den := by
  cases x with
  | finite negative m e =>
    rw [quotient?_finite, Option.some.injEq] at h
    rw [← h]
    exact powers_snd_pos e
  | infinite negative => cases h
  | nan => cases h

theorem value?_finite (m : Nat) (e : Int) :
    (finite false m e).value? = some ((m : ℚ) * 2 ^ e) := by
  have hdown : ((powers e).2 : ℚ) ≠ 0 := by exact_mod_cast (powers_snd_pos e).ne'
  rw [value?, quotient?_finite, Option.map_some, Option.some.injEq, Quotient.value, if_neg (by simp),
    Nat.cast_mul, powers_fst_eq, ← mul_assoc, mul_div_cancel_right₀ _ hdown]

/-- Comparing finite numbers is comparing their values. -/
theorem lt_iff_value {x y : Binary64} {v w : ℚ} (hx : x.value? = some v) (hy : y.value? = some w) :
    x.lt y = true ↔ v < w := by
  obtain ⟨p, hp, rfl⟩ := Option.map_eq_some_iff.1 hx
  obtain ⟨q, hq, rfl⟩ := Option.map_eq_some_iff.1 hy
  have hpden : (0 : ℚ) < p.den := by exact_mod_cast quotient?_den_pos hp
  have hqden : (0 : ℚ) < q.den := by exact_mod_cast quotient?_den_pos hq
  cases x with
  | finite negative m e =>
    cases y with
    | finite negative' m' e' =>
      unfold lt
      dsimp only
      rw [hp, hq]
      dsimp only
      rw [decide_eq_true_eq, Quotient.value, Quotient.value, div_lt_div_iff₀ hpden hqden,
        ← @Int.cast_lt ℚ]
      cases p.negative <;> cases q.negative <;> simp
    | infinite negative' => cases hq
    | nan => cases hq
  | infinite negative => cases hp
  | nan => cases hp

theorem le_iff_value {x y : Binary64} {v w : ℚ} (hx : x.value? = some v) (hy : y.value? = some w) :
    x.le y = true ↔ v ≤ w := by
  have hequal : x.eq y = (!x.lt y && !y.lt x) := by
    cases x with
    | finite negative m e =>
      cases y with
      | finite negative' m' e' => rfl
      | infinite negative' => cases hy
      | nan => cases hy
    | infinite negative => cases hx
    | nan => cases hx
  unfold le
  rw [hequal, Bool.or_eq_true, Bool.and_eq_true, Bool.not_eq_true', Bool.not_eq_true',
    ← Bool.not_eq_true, ← Bool.not_eq_true, lt_iff_value hx hy, lt_iff_value hy hx, not_lt, not_lt]
  constructor
  · rintro (hlt | ⟨-, hle⟩)
    · exact hlt.le
    · exact hle
  · intro hle
    rcases hle.lt_or_eq with hlt | heq
    · exact .inl hlt
    · exact .inr ⟨heq.ge, hle⟩

/-- Nothing without a value is below a finite number, unless it is negative. -/
theorem value?_of_lt {x y : Binary64} (hx : x.isNegative = false) {w : ℚ} (hy : y.value? = some w)
    (h : x.lt y = true) : ∃ v, x.value? = some v := by
  cases x with
  | finite negative m e => exact ⟨_, rfl⟩
  | infinite negative =>
    obtain rfl : negative = false := hx
    cases y with
    | finite negative' m' e' => cases h
    | infinite negative' => cases hy
    | nan => cases hy
  | nan => cases h

/-! ### Rounding a quotient -/

/-- The exponent of the last place of a quotient. -/
def lastPlace (num den : Nat) : Int := max (magnitude num den - 53) (-1074)

/-- What a quotient that is not too large is rounded to. -/
def nearest (num den : Nat) : ℚ :=
  roundEven (num * (powers (lastPlace num den)).2) (den * (powers (lastPlace num den)).1) *
    2 ^ lastPlace num den

theorem nearest_nonneg (num den : Nat) : 0 ≤ nearest num den :=
  mul_nonneg (Nat.cast_nonneg _) (zpow_pos two_pos _).le

theorem nearest_zero (den : Nat) : nearest 0 den = 0 := by
  rw [nearest, Nat.zero_mul]
  simp [roundEven]

theorem value?_ofQuotient {num den : Nat} (h : (ofQuotient false num den).isInfinite = false) :
    (ofQuotient false num den).value? = some (nearest num den) := by
  unfold ofQuotient at h ⊢
  by_cases hnum : num = 0
  · subst hnum
    rw [if_pos (beq_self_eq_true 0), value?_finite, nearest_zero, Nat.cast_zero, zero_mul]
  rw [if_neg (by simpa using hnum)] at h ⊢
  dsimp only at h ⊢
  split at h
  · rename_i hround
    rw [if_pos hround]
    dsimp only at h ⊢
    split at h
    · cases h
    · rename_i hexponent
      rw [if_neg hexponent, value?_finite, nearest, lastPlace, eq_of_beq hround, zpow_add₀ two_ne_zero]
      norm_num
      ring
  · rename_i hround
    rw [if_neg hround]
    dsimp only at h ⊢
    split at h
    · cases h
    · rename_i hexponent
      rw [if_neg hexponent, value?_finite]
      rfl

/-- A multiple of the factors stands for the multiple of the power. -/
theorem mul_powers_eq (k den : Nat) (e : Int) :
    (k : ℚ) * 2 ^ e * den * (powers e).2 = k * (den * (powers e).1) := by
  rw [powers_fst_eq]
  ring

/-- Comparing with a multiple of the factors is comparing with the multiple of the power. -/
theorem le_mul_powers_iff {num den : Nat} (hden : 0 < den) (k : Nat) (e : Int) :
    num * (powers e).2 ≤ k * (den * (powers e).1) ↔ (num : ℚ) / den ≤ k * 2 ^ e := by
  have hdown : (0 : ℚ) < (powers e).2 := by exact_mod_cast powers_snd_pos e
  have hden' : (0 : ℚ) < den := by exact_mod_cast hden
  rw [div_le_iff₀ hden', ← mul_le_mul_iff_left₀ hdown, mul_powers_eq]
  exact_mod_cast Iff.rfl

theorem mul_powers_le_iff {num den : Nat} (hden : 0 < den) (k : Nat) (e : Int) :
    k * (den * (powers e).1) ≤ num * (powers e).2 ↔ (k : ℚ) * 2 ^ e ≤ num / den := by
  have hdown : (0 : ℚ) < (powers e).2 := by exact_mod_cast powers_snd_pos e
  have hden' : (0 : ℚ) < den := by exact_mod_cast hden
  rw [le_div_iff₀ hden', ← mul_le_mul_iff_left₀ hdown, mul_powers_eq]
  exact_mod_cast Iff.rfl

theorem scaled_pos {den : Nat} (hden : 0 < den) (e : Int) : 0 < den * (powers e).1 := by
  refine Nat.mul_pos hden ?_
  unfold powers
  split
  · exact Nat.two_pow_pos _
  · exact Nat.one_pos

/-- A quotient is rounded to at most `2 ^ 53` units of its last place. -/
theorem nearest_le {num den : Nat} (hnum : 0 < num) (hden : 0 < den) :
    nearest num den ≤ (2 ^ 53 : Nat) * 2 ^ lastPlace num den := by
  have hvalue : (num : ℚ) / den ≤ (2 ^ 53 : Nat) * 2 ^ lastPlace num den := by
    calc (num : ℚ) / den ≤ 2 ^ magnitude num den := (magnitude_spec hnum hden).2.le
      _ ≤ 2 ^ (53 + lastPlace num den) := by
        refine zpow_le_zpow_right₀ one_le_two ?_
        unfold lastPlace
        omega
      _ = (2 ^ 53 : Nat) * 2 ^ lastPlace num den := by
        rw [zpow_add₀ two_ne_zero]
        norm_num
  have hround := roundEven_le_of_le (scaled_pos hden _) ((le_mul_powers_iff hden _ _).2 hvalue)
  have hunit : (0 : ℚ) < 2 ^ lastPlace num den := zpow_pos two_pos _
  unfold nearest
  gcongr

/-- Unless its last place is the least one, it is rounded to at least `2 ^ 52` units. -/
theorem le_nearest {num den : Nat} (hnum : 0 < num) (hden : 0 < den)
    (hplace : -1074 < lastPlace num den) :
    ((2 ^ 52 : Nat) : ℚ) * 2 ^ lastPlace num den ≤ nearest num den := by
  have hvalue : ((2 ^ 52 : Nat) : ℚ) * 2 ^ lastPlace num den ≤ num / den := by
    calc ((2 ^ 52 : Nat) : ℚ) * 2 ^ lastPlace num den = 2 ^ (52 + lastPlace num den) := by
          rw [zpow_add₀ two_ne_zero]
          norm_num
      _ ≤ 2 ^ (magnitude num den - 1) := by
        refine zpow_le_zpow_right₀ one_le_two ?_
        unfold lastPlace at hplace ⊢
        omega
      _ ≤ num / den := (magnitude_spec hnum hden).1
  have hround := le_roundEven (scaled_pos hden _) ((mul_powers_le_iff hden _ _).2 hvalue)
  have hunit : (0 : ℚ) < 2 ^ lastPlace num den := zpow_pos two_pos _
  unfold nearest
  gcongr

section Mono

variable {a b c d : Nat} (hb : 0 < b) (hd : 0 < d) (h : (a : ℚ) / b ≤ c / d)

include hb hd h

theorem mul_le_mul_of_div_le : a * d ≤ c * b := by
  rw [div_le_div_iff₀ (by exact_mod_cast hb) (by exact_mod_cast hd)] at h
  exact_mod_cast h

theorem pos_of_div_le (ha : 0 < a) : 0 < c :=
  Nat.pos_of_mul_pos_right ((Nat.mul_pos ha hd).trans_le (mul_le_mul_of_div_le hb hd h))

/-- A greater quotient has no lesser last place. -/
theorem lastPlace_mono (ha : 0 < a) : lastPlace a b ≤ lastPlace c d := by
  have hbetween : (2 : ℚ) ^ (magnitude a b - 1) < 2 ^ magnitude c d :=
    calc (2 : ℚ) ^ (magnitude a b - 1) ≤ a / b := (magnitude_spec ha hb).1
      _ ≤ c / d := h
      _ < 2 ^ magnitude c d := (magnitude_spec (pos_of_div_le hb hd h ha) hd).2
  have hmagnitude := (zpow_lt_zpow_iff_right₀ one_lt_two).1 hbetween
  unfold lastPlace
  omega

/-- With the same last place both are rounded to its multiples. -/
theorem nearest_mono_of_eq (heq : lastPlace a b = lastPlace c d) : nearest a b ≤ nearest c d := by
  unfold nearest
  rw [heq]
  generalize lastPlace c d = e
  have hround : roundEven (a * (powers e).2) (b * (powers e).1) ≤
      roundEven (c * (powers e).2) (d * (powers e).1) := by
    refine roundEven_mono (scaled_pos hb e) (scaled_pos hd e) ?_
    calc a * (powers e).2 * (d * (powers e).1) = a * d * ((powers e).2 * (powers e).1) := by ring
      _ ≤ c * b * ((powers e).2 * (powers e).1) :=
        Nat.mul_le_mul_right _ (mul_le_mul_of_div_le hb hd h)
      _ = c * (powers e).2 * (b * (powers e).1) := by ring
  have hunit : (0 : ℚ) < 2 ^ e := zpow_pos two_pos e
  gcongr

/-- Rounding a quotient keeps the order. -/
theorem nearest_mono : nearest a b ≤ nearest c d := by
  rcases Nat.eq_zero_or_pos a with rfl | ha
  · rw [nearest_zero]
    exact nearest_nonneg c d
  rcases (lastPlace_mono hb hd h ha).eq_or_lt with heq | hlt
  · exact nearest_mono_of_eq hb hd h heq
  · -- With a greater last place the power between the two is not crossed.
    have hplace : -1074 < lastPlace c d := by
      refine lt_of_le_of_lt ?_ hlt
      exact le_max_right _ _
    calc nearest a b ≤ (2 ^ 53 : Nat) * 2 ^ lastPlace a b := nearest_le ha hb
      _ = (2 ^ 52 : Nat) * 2 ^ (lastPlace a b + 1) := by
        rw [zpow_add₀ two_ne_zero]
        norm_num
        ring
      _ ≤ (2 ^ 52 : Nat) * 2 ^ lastPlace c d := by
        gcongr
        · exact one_le_two
        · omega
      _ ≤ nearest c d := le_nearest (pos_of_div_le hb hd h ha) hd hplace

/-- A quotient no greater than one that is a number when rounded is a number too. -/
theorem isInfinite_mono (hfinite : (ofQuotient false c d).isInfinite = false) :
    (ofQuotient false a b).isInfinite = false := by
  rw [← Bool.not_eq_true, isInfinite_ofQuotient_iff hd] at hfinite
  rw [← Bool.not_eq_true, isInfinite_ofQuotient_iff hb]
  intro hlimit
  refine hfinite (Nat.le_of_mul_le_mul_right ?_ hb)
  calc limit * d * b = limit * b * d := by ring
    _ ≤ a * d := Nat.mul_le_mul_right d hlimit
    _ ≤ c * b := mul_le_mul_of_div_le hb hd h

end Mono

/-! ### Numbers nearest to a value -/

/-- A number is the one nearest to a value. -/
def IsNearest (x : Binary64) (v : ℚ) : Prop :=
  ∃ num den : Nat, 0 < den ∧ v = num / den ∧ x = ofQuotient false num den

/-- A number is at most another one that is finite. -/
def AtMost (x y : Binary64) : Prop :=
  ∀ w, y.value? = some w → ∃ v, x.value? = some v ∧ v ≤ w

theorem isInfinite_of_value? {x : Binary64} {v : ℚ} (h : x.value? = some v) :
    x.isInfinite = false := by
  cases x with
  | finite negative m e => rfl
  | infinite negative => cases h
  | nan => cases h

theorem isNegative_ofQuotient (num den : Nat) : (ofQuotient false num den).isNegative = false := by
  unfold ofQuotient
  dsimp only
  split
  · rfl
  · split
    · split
      · rfl
      · rfl
    · split
      · rfl
      · rfl

namespace IsNearest

variable {x y : Binary64} {v w : ℚ}

theorem isNegative (h : IsNearest x v) : x.isNegative = false := by
  obtain ⟨num, den, -, -, rfl⟩ := h
  exact isNegative_ofQuotient num den

theorem exists_value (h : IsNearest x v) (hfinite : x.isInfinite = false) :
    ∃ u, x.value? = some u := by
  obtain ⟨num, den, -, -, rfl⟩ := h
  exact ⟨_, value?_ofQuotient hfinite⟩

/-- Being nearest keeps the order. -/
theorem mono (hx : IsNearest x v) (hy : IsNearest y w) (hvw : v ≤ w) : AtMost x y := by
  obtain ⟨a, b, hb, rfl, rfl⟩ := hx
  obtain ⟨c, d, hd, rfl, rfl⟩ := hy
  intro u hu
  have hfinite := isInfinite_of_value? hu
  rw [value?_ofQuotient hfinite, Option.some.injEq] at hu
  rw [← hu]
  exact ⟨_, value?_ofQuotient (isInfinite_mono hb hd hvw hfinite), nearest_mono hb hd hvw⟩

end IsNearest

/-! ### Products and powers -/

theorem quotient?_negative {x : Binary64} {q : Quotient} (h : x.quotient? = some q) :
    q.negative = x.isNegative := by
  cases x with
  | finite negative m e =>
    rw [quotient?_finite, Option.some.injEq] at h
    rw [← h]
    rfl
  | infinite negative => cases h
  | nan => cases h

/-- The value of a number that is not negative, as a quotient of naturals. -/
theorem exists_quotient {x : Binary64} {v : ℚ} (hx : x.value? = some v)
    (hsign : x.isNegative = false) :
    ∃ q, x.quotient? = some q ∧ 0 < q.den ∧ v = (q.num : ℚ) / q.den := by
  obtain ⟨q, hq, hvalue⟩ := Option.map_eq_some_iff.1 hx
  refine ⟨q, hq, quotient?_den_pos hq, ?_⟩
  rw [← hvalue, Quotient.value, quotient?_negative hq, hsign, if_neg Bool.false_ne_true]

theorem value?_nonneg {x : Binary64} {v : ℚ} (hx : x.value? = some v)
    (hsign : x.isNegative = false) : 0 ≤ v := by
  obtain ⟨q, -, -, rfl⟩ := exists_quotient hx hsign
  positivity

/-- The product of two numbers is the one nearest to the product of their values. -/
theorem isNearest_mul {x y : Binary64} {v w : ℚ} (hx : x.value? = some v) (hy : y.value? = some w)
    (hxsign : x.isNegative = false) (hysign : y.isNegative = false) :
    IsNearest (x.mul y) (v * w) := by
  obtain ⟨p, hp, hpden, rfl⟩ := exists_quotient hx hxsign
  obtain ⟨q, hq, hqden, rfl⟩ := exists_quotient hy hysign
  refine ⟨p.num * q.num, p.den * q.den, Nat.mul_pos hpden hqden, ?_, ?_⟩
  · rw [div_mul_div_comm, Nat.cast_mul, Nat.cast_mul]
  · cases x with
    | finite negative m e =>
      cases y with
      | finite negative' m' e' =>
        unfold mul
        dsimp only
        rw [hp, hq]
        dsimp only
        rw [hxsign, hysign]
        rfl
      | infinite negative' => cases hq
      | nan => cases hq
    | infinite negative => cases hp
    | nan => cases hp

theorem exists_value_of_mul {x y : Binary64} {u : ℚ} (h : (x.mul y).value? = some u) :
    ∃ w, y.value? = some w := by
  cases y with
  | finite negative m e => exact ⟨_, rfl⟩
  | infinite negative =>
    cases x with
    | finite negative' m' e' =>
      unfold mul at h
      dsimp only at h
      split at h
      · cases h
      · cases h
    | infinite negative' => cases h
    | nan => cases h
  | nan =>
    cases x with
    | finite negative m e => cases h
    | infinite negative => cases h
    | nan => cases h

/-- Products with a number that is not negative keep the order. -/
theorem AtMost.mul {x y z : Binary64} {v : ℚ} (h : AtMost y z) (hx : x.value? = some v)
    (hxsign : x.isNegative = false) (hysign : y.isNegative = false) (hzsign : z.isNegative = false) :
    AtMost (x.mul y) (x.mul z) := by
  intro u hu
  obtain ⟨w', hz⟩ := exists_value_of_mul hu
  obtain ⟨w, hy, hle⟩ := h w' hz
  refine (isNearest_mul hx hy hxsign hysign).mono (isNearest_mul hx hz hxsign hzsign) ?_ u hu
  exact mul_le_mul_of_nonneg_left hle (value?_nonneg hx hxsign)

/-- A number with a positive value has no sign and a mantissa. -/
theorem exists_finite {x : Binary64} {v : ℚ} (hx : x.value? = some v) (hv : 0 < v) :
    ∃ m e, x = finite false m e ∧ m ≠ 0 ∧ v = ((m * (powers e).1 : Nat) : ℚ) / (powers e).2 := by
  obtain ⟨q, hq, rfl⟩ := Option.map_eq_some_iff.1 hx
  cases x with
  | finite negative m e =>
    rw [quotient?_finite, Option.some.injEq] at hq
    subst hq
    cases negative with
    | true =>
      have hneg : -((m * (powers e).1 : Nat) : ℚ) / (powers e).2 ≤ 0 :=
        div_nonpos_of_nonpos_of_nonneg (neg_nonpos.2 (Nat.cast_nonneg _)) (Nat.cast_nonneg _)
      exact absurd hv (not_lt.2 hneg)
    | false =>
      refine ⟨m, e, rfl, ?_, rfl⟩
      rintro rfl
      simp [Quotient.value] at hv
  | infinite negative => cases hq
  | nan => cases hq

/-- A product of numbers without a sign has none. -/
theorem isNegative_mul {x y : Binary64} (hx : x.isNegative = false) (hy : y.isNegative = false) :
    (x.mul y).isNegative = false := by
  have hsign : (x.isNegative != y.isNegative) = false := by rw [hx, hy]; rfl
  unfold mul
  dsimp only
  rw [hsign]
  split
  · rfl
  · rfl
  · split
    · rfl
    · rfl
  · split
    · rfl
    · rfl
  · split
    · exact isNegative_ofQuotient _ _
    · rfl

section Pow

variable {x : Binary64} {μ : ℚ} (hx : x.value? = some μ) (hμ : 1 ≤ μ)

include hx hμ

/-- A power of a number from one on is the number nearest to the power of its value, unless it is one of
the large powers that are infinite without being computed. -/
theorem pow_cases (n : Nat) : (IsNearest (x.pow n) (μ ^ n) ∧ (n ≤ 4000 ∨ μ = 1)) ∨
    (x.pow n = infinite false ∧ 4000 < n ∧ μ ≠ 1) := by
  obtain ⟨m, e, rfl, hm, rfl⟩ := exists_finite hx (one_pos.trans_le hμ)
  have hdown : (0 : ℚ) < (powers e).2 := by exact_mod_cast powers_snd_pos e
  have hone : IsNearest (ofQuotient false 1 1) 1 := ⟨1, 1, Nat.one_pos, by norm_num, rfl⟩
  have hunit : ((m * (powers e).1 : Nat) : ℚ) / (powers e).2 = 1 ↔
      m * (powers e).1 = (powers e).2 := by
    rw [div_eq_one_iff_eq hdown.ne', Nat.cast_inj]
  rw [one_le_div hdown, Nat.cast_le] at hμ
  unfold pow
  split
  · rename_i hn
    obtain rfl := eq_of_beq hn
    rw [pow_zero]
    exact .inl ⟨hone, .inl (Nat.zero_le _)⟩
  dsimp only
  rw [if_neg (mt eq_of_beq hm), Bool.false_and]
  split
  · rename_i hlarge
    rw [if_neg (Nat.not_lt.2 hμ)]
    split
    · rename_i heq
      have hvalue := hunit.2 (eq_of_beq heq)
      rw [hvalue, one_pow]
      exact .inl ⟨hone, .inr rfl⟩
    · rename_i hne
      exact .inr ⟨rfl, hlarge, mt hunit.1 fun h => hne (beq_iff_eq.2 h)⟩
  · rename_i hsmall
    refine .inl ⟨⟨(m * (powers e).1) ^ n, (powers e).2 ^ n, ?_, ?_, rfl⟩, .inl (Nat.not_lt.1 hsmall)⟩
    · exact pow_pos (powers_snd_pos e) n
    · rw [div_pow, Nat.cast_pow, Nat.cast_pow]

theorem isNegative_pow (n : Nat) : (x.pow n).isNegative = false := by
  rcases pow_cases hx hμ n with ⟨hnearest, -⟩ | ⟨hinfinite, -⟩
  · exact hnearest.isNegative
  · rw [hinfinite]
    rfl

/-- Powers of a number from one on keep the order of the exponents. -/
theorem pow_mono {i j : Nat} (hij : i ≤ j) : AtMost (x.pow i) (x.pow j) := by
  rcases pow_cases hx hμ j with ⟨hj, hsmall⟩ | ⟨hj, -⟩
  · rcases pow_cases hx hμ i with ⟨hi, -⟩ | ⟨-, hlarge, hunit⟩
    · exact hi.mono hj (pow_le_pow_right₀ hμ hij)
    · rcases hsmall with hsmall | hone
      · omega
      · exact absurd hone hunit
  · intro w hw
    rw [hj] at hw
    cases hw

end Pow

end Binary64

end WebMigration.Number
