import WebMigration.Proofs.Number.Order

/-!
# Decimals that stand for a whole number

A decimal whose value is a whole number of at most 53 bits is read as exactly that number, however the
point and the exponent place it.
-/

namespace WebMigration.Number.Binary64

variable {num den n digits : Nat} {exponent : Int}

theorem lastPlace_nonpos (hden : 0 < den) (hn : 0 < n) (hsmall : n < 2 ^ 53) :
    lastPlace (n * den) den ≤ 0 := by
  have hlow := (magnitude_spec (Nat.mul_pos hn hden) hden).1
  have hden' : (den : ℚ) ≠ 0 := by exact_mod_cast hden.ne'
  rw [Nat.cast_mul, mul_div_cancel_right₀ _ hden'] at hlow
  have hbits : (2 : ℚ) ^ (magnitude (n * den) den - 1) < 2 ^ (53 : Int) := by
    calc (2 : ℚ) ^ (magnitude (n * den) den - 1) ≤ n := hlow
      _ < 2 ^ (53 : Int) := by exact_mod_cast hsmall
  have hmagnitude := (zpow_lt_zpow_iff_right₀ one_lt_two).1 hbits
  unfold lastPlace
  omega

/-- A whole number of at most 53 bits is its own nearest number. -/
theorem nearest_whole (hden : 0 < den) (hn : 0 < n) (hsmall : n < 2 ^ 53) :
    nearest (n * den) den = n := by
  have hplace := lastPlace_nonpos hden hn hsmall
  have hden' : (den : ℚ) ≠ 0 := by exact_mod_cast hden.ne'
  obtain ⟨k, hk⟩ : ∃ k : Nat, lastPlace (n * den) den = -(k : Int) := Int.exists_eq_neg_ofNat hplace
  have hvalue : ((n * den : Nat) : ℚ) / den = (n * 2 ^ k : Nat) * 2 ^ lastPlace (n * den) den := by
    rw [hk, Nat.cast_mul, mul_div_cancel_right₀ _ hden', zpow_neg, zpow_natCast]
    push_cast
    field_simp
  have hunit := scaled_pos hden (lastPlace (n * den) den)
  have hround := (roundEven_le_of_le hunit ((le_mul_powers_iff hden _ _).2 hvalue.le)).antisymm
    (le_roundEven hunit ((mul_powers_le_iff hden _ _).2 hvalue.ge))
  rw [nearest, hround, ← hvalue, Nat.cast_mul, mul_div_cancel_right₀ _ hden']

theorem value?_ofQuotient_whole (hden : 0 < den) (hn : 0 < n) (hsmall : n < 2 ^ 53) :
    (ofQuotient false (n * den) den).value? = some (n : ℚ) := by
  have hlimit : 2 ^ 53 < limit := by
    have h : ((2 ^ 53 : Nat) : ℚ) < limit := by
      calc ((2 ^ 53 : Nat) : ℚ) = 2 ^ (53 : Int) := by norm_num
        _ ≤ 2 ^ (1023 : Int) := zpow_le_zpow_right₀ one_le_two (by norm_num)
        _ < limit := lt_limit
    exact_mod_cast h
  have hfinite : (ofQuotient false (n * den) den).isInfinite = false := by
    rw [Bool.eq_false_iff, ne_eq, isInfinite_ofQuotient_iff hden, not_le]
    exact Nat.mul_lt_mul_of_pos_right (hsmall.trans hlimit) hden
  rw [value?_ofQuotient hfinite, nearest_whole hden hn hsmall]

/-- A number has as many digits as powers of ten are not above it. -/
theorem toDigits_bounds (hdigits : 0 < digits) :
    ∃ places, (Nat.toDigits 10 digits).length = places + 1 ∧ 10 ^ places ≤ digits ∧
      digits < 10 ^ (places + 1) := by
  have hpos : 0 < (Nat.toDigits 10 digits).length := Nat.length_toDigits_pos
  obtain ⟨places, hplaces⟩ := Nat.exists_eq_succ_of_ne_zero hpos.ne'
  refine ⟨places, hplaces, ?_, ?_⟩
  · rcases Nat.eq_zero_or_pos places with rfl | hmore
    · exact hdigits
    · by_contra hless
      have hshort := (Nat.length_toDigits_le_iff (by norm_num) hmore).2 (Nat.lt_of_not_le hless)
      omega
  · exact (Nat.length_toDigits_le_iff (by norm_num) (Nat.succ_pos places)).1 hplaces.le

/-- The place of the first digit of a decimal that stands for a positive whole number. -/
theorem size_bounds (h : (digits : ℚ) * 10 ^ exponent = n) (hn : 0 < n) (hsmall : n < 2 ^ 53) :
    0 < digits ∧ 0 < (Nat.toDigits 10 digits).length + exponent ∧
      (Nat.toDigits 10 digits).length + exponent ≤ 16 := by
  have hten : (0 : ℚ) < 10 ^ exponent := zpow_pos (by norm_num) exponent
  have hdigits : 0 < digits := by
    rcases Nat.eq_zero_or_pos digits with rfl | hpos
    · rw [Nat.cast_zero, zero_mul] at h
      exact absurd (by exact_mod_cast h.symm) hn.ne'
    · exact hpos
  obtain ⟨places, hplaces, hlow, hhigh⟩ := toDigits_bounds hdigits
  have hone : (1 : ℚ) < 10 ^ ((places + 1 : Nat) + exponent) := by
    calc (1 : ℚ) ≤ n := by exact_mod_cast hn
      _ = digits * 10 ^ exponent := h.symm
      _ < (10 ^ (places + 1) : Nat) * 10 ^ exponent :=
        mul_lt_mul_of_pos_right (by exact_mod_cast hhigh) hten
      _ = 10 ^ ((places + 1 : Nat) + exponent) := by
        rw [zpow_add₀ (by norm_num), zpow_natCast, Nat.cast_pow]
        norm_num
  have htop : (10 : ℚ) ^ ((places : Int) + exponent) < 10 ^ (16 : Int) := by
    calc (10 : ℚ) ^ ((places : Int) + exponent) = (10 ^ places : Nat) * 10 ^ exponent := by
          rw [zpow_add₀ (by norm_num), zpow_natCast, Nat.cast_pow]
          norm_num
      _ ≤ digits * 10 ^ exponent := mul_le_mul_of_nonneg_right (by exact_mod_cast hlow) hten.le
      _ = n := h
      _ < (2 ^ 53 : Nat) := by exact_mod_cast hsmall
      _ < 10 ^ (16 : Int) := by norm_num
  have hone' := (one_lt_zpow_iff_right₀ (by norm_num)).1 hone
  have htop' := (zpow_lt_zpow_iff_right₀ (by norm_num)).1 htop
  rw [hplaces]
  push_cast at hone' ⊢
  refine ⟨hdigits, hone', ?_⟩
  omega

/-- **A decimal that stands for a small whole number is read as that number.** -/
theorem value?_ofDecimal (h : (digits : ℚ) * 10 ^ exponent = n) (hn : 0 < n) (hsmall : n < 2 ^ 53) :
    (ofDecimal false digits exponent).value? = some (n : ℚ) := by
  obtain ⟨hdigits, hlow, hhigh⟩ := size_bounds h hn hsmall
  unfold ofDecimal
  rw [if_neg (by simpa using hdigits.ne')]
  dsimp only
  rw [if_neg (by omega), if_neg (by omega)]
  split
  · rename_i hexponent
    obtain ⟨k, rfl⟩ := Int.eq_ofNat_of_zero_le hexponent
    have hvalue : digits * Nat.pow 10 (k : Int).toNat = n * 1 := by
      rw [zpow_natCast] at h
      rw [Int.toNat_natCast, Nat.mul_one]
      exact_mod_cast h
    rw [hvalue]
    exact value?_ofQuotient_whole Nat.one_pos hn hsmall
  · rename_i hexponent
    obtain ⟨k, rfl⟩ : ∃ k : Nat, exponent = -(k : Int) := Int.exists_eq_neg_ofNat (by omega)
    have hpow : (0 : ℚ) < 10 ^ k := by positivity
    have hvalue : digits = n * Nat.pow 10 (- -(k : Int)).toNat := by
      rw [zpow_neg, zpow_natCast, ← div_eq_mul_inv, div_eq_iff hpow.ne'] at h
      rw [Int.neg_neg, Int.toNat_natCast]
      exact_mod_cast h
    have hden : 0 < Nat.pow 10 (- -(k : Int)).toNat := Nat.pow_pos (by norm_num)
    rw [hvalue]
    exact value?_ofQuotient_whole hden hn hsmall

end WebMigration.Number.Binary64
