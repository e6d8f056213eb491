import Mathlib.Algebra.Order.Field.Power
import Mathlib.Tactic.Positivity
import ShaderSource.Proofs.Number.Value

/-!
# Numbers are rounded to themselves

A fraction that has the value of a number is rounded to this number, whatever its
numerator and denominator are. The binary logarithm of the value tells the
exponent of the canonical form, and with this exponent the mantissa is whole, so
nothing is rounded. The same is true of a decimal fraction: its value is neither
so great nor so small that it would not be looked at.
-/

namespace ShaderSource.Binary64

-- Powers of whole numbers are those of the core library, also under a richer algebra.
attribute [local instance (high)] instPowNat

/-- A quotient without a remainder is not rounded. -/
theorem roundedQuotient_mul (quotient : Nat) {denominator : Nat} (positive : 0 < denominator) :
    roundedQuotient (quotient * denominator) denominator = quotient := by
  simp [roundedQuotient, Nat.mul_mod_left, Nat.mul_div_cancel quotient positive, positive]

section Logarithm

/-- The binary logarithm is the exponent of the power of two below a value. -/
theorem log_eq_of_bounds {value : ℚ} {exponent : Int} (least : (2 : ℚ) ^ exponent ≤ value)
    (greatest : value < (2 : ℚ) ^ (exponent + 1)) : Int.log 2 value = exponent := by
  have positive : 0 < value := (zpow_pos (by norm_num) exponent).trans_le least
  have above : exponent ≤ Int.log 2 value :=
    (Int.zpow_le_iff_le_log (by decide) positive).mp (by exact_mod_cast least)
  have below : Int.log 2 value < exponent + 1 :=
    (Int.lt_zpow_iff_log_lt (by decide) positive).mp (by exact_mod_cast greatest)
  omega

/-- A whole number lies between the powers of two at its logarithm. -/
theorem two_pow_log2_le {value : Nat} (positive : value ≠ 0) :
    (2 : ℚ) ^ (value.log2 : Int) ≤ value ∧ (value : ℚ) < 2 ^ ((value.log2 : Int) + 1) := by
  constructor
  · rw [zpow_natCast]
    exact_mod_cast Nat.log2_self_le positive
  · have below : value < 2 ^ (value.log2 + 1) := Nat.lt_log2_self
    exact_mod_cast below

/-- The difference of the logarithms of two whole numbers is that of their quotient, or is greater
    by one. -/
theorem quotient_bounds {top bottom : Nat} (positive : top ≠ 0) (divisor : bottom ≠ 0) :
    (2 : ℚ) ^ ((top.log2 : Int) - bottom.log2 - 1) ≤ top / bottom ∧
      (top : ℚ) / bottom < 2 ^ ((top.log2 : Int) - bottom.log2 + 1) := by
  obtain ⟨topLeast, topGreatest⟩ := two_pow_log2_le positive
  obtain ⟨bottomLeast, bottomGreatest⟩ := two_pow_log2_le divisor
  have two : (2 : ℚ) ≠ 0 := by norm_num
  have below : 0 < (bottom : ℚ) := by exact_mod_cast Nat.pos_of_ne_zero divisor
  generalize guessed : (top.log2 : Int) - bottom.log2 = guess
  constructor
  · rw [le_div_iff₀ below]
    calc (2 : ℚ) ^ (guess - 1) * bottom ≤ 2 ^ (guess - 1) * 2 ^ ((bottom.log2 : Int) + 1) := by
          gcongr
      _ = 2 ^ (top.log2 : Int) := by
          rw [← zpow_add₀ two]
          congr 1
          omega
      _ ≤ top := topLeast
  · rw [div_lt_iff₀ below]
    calc (top : ℚ) < 2 ^ (guess + 1) * 2 ^ (bottom.log2 : Int) := by
          rw [← zpow_add₀ two]
          convert topGreatest using 2
          omega
      _ ≤ 2 ^ (guess + 1) * bottom := by gcongr

/-- The comparison of whole numbers that tells whether a power of two is in a fraction. -/
theorem two_pow_le_div_iff (top : Nat) {bottom : Nat} (divisor : bottom ≠ 0) (power : Int) :
    bottom * 2 ^ power.toNat ≤ top * 2 ^ (-power).toNat ↔ (2 : ℚ) ^ power ≤ top / bottom := by
  have two : (2 : ℚ) ≠ 0 := by norm_num
  have below : 0 < (bottom : ℚ) := by exact_mod_cast Nat.pos_of_ne_zero divisor
  rw [zpow_eq_div two, div_le_div_iff₀ (by positivity) below, ← Nat.cast_le (α := ℚ)]
  push_cast
  rw [mul_comm (bottom : ℚ)]

/-- The leading exponent of a fraction is the binary logarithm of its value. -/
theorem leadingExponent_eq_log {top bottom : Nat} (positive : top ≠ 0) (divisor : bottom ≠ 0) :
    leadingExponent top bottom = Int.log 2 ((top : ℚ) / bottom) := by
  obtain ⟨least, greatest⟩ := quotient_bounds positive divisor
  rw [leadingExponent]
  generalize (top.log2 : Int) - bottom.log2 = guess at least greatest ⊢
  have tested := two_pow_le_div_iff top divisor guess
  by_cases reached : bottom * 2 ^ guess.toNat ≤ top * 2 ^ (-guess).toNat
  · rw [if_pos reached, log_eq_of_bounds (tested.mp reached) greatest]
  · have short : (top : ℚ) / bottom < 2 ^ (guess - 1 + 1) := by
      rw [sub_add_cancel]
      exact not_le.mp fun other => reached (tested.mpr other)
    rw [if_neg reached, log_eq_of_bounds least short]

end Logarithm

section Rounding

variable {mantissa : Nat} {exponent : Int}

/-- The leading power of two of a number is that of its mantissa, moved by the exponent. -/
theorem log_magnitude (positive : mantissa ≠ 0) :
    Int.log 2 (magnitude mantissa exponent) = mantissa.log2 + exponent := by
  obtain ⟨least, greatest⟩ := two_pow_log2_le positive
  have two : (2 : ℚ) ≠ 0 := by norm_num
  apply log_eq_of_bounds
  · rw [magnitude, zpow_add₀ two]
    gcongr
  · rw [magnitude, add_right_comm, zpow_add₀ two]
    gcongr

/-- The exponent of the canonical form leaves 53 bits to the mantissa, or is the least one. -/
theorem exponent_eq (canonical : CanonicalMagnitude mantissa exponent) (positive : mantissa ≠ 0) :
    max (mantissa.log2 + exponent - 52) (-1074) = exponent := by
  obtain ⟨bound, least, _, full | lowest⟩ := canonical
  · have bits : mantissa.log2 = 52 := (Nat.log2_eq_iff positive).mpr ⟨full, bound⟩
    omega
  · have bits : mantissa.log2 < 53 := (Nat.log2_lt positive).mpr bound
    omega

/-- A fraction with the value of a number is rounded to the number. -/
theorem ofFraction_eq (canonical : CanonicalMagnitude mantissa exponent) (positive : mantissa ≠ 0)
    {top bottom : Nat} (divisor : bottom ≠ 0)
    (same : (top : ℚ) / bottom = magnitude mantissa exponent) (negative : Bool) :
    ofFraction negative top bottom = finite negative mantissa exponent canonical := by
  have two : (2 : ℚ) ≠ 0 := by norm_num
  have below : (bottom : ℚ) ≠ 0 := by exact_mod_cast divisor
  have scaled : top * 2 ^ (-exponent).toNat = mantissa * (bottom * 2 ^ exponent.toNat) := by
    have parts := magnitude_eq_div mantissa exponent
    rw [← same, numerator, denominator, div_eq_div_iff below (by positivity)] at parts
    have equal : top * 2 ^ (-exponent).toNat = mantissa * 2 ^ exponent.toNat * bottom := by
      exact_mod_cast parts
    rw [equal, Nat.mul_assoc, Nat.mul_comm bottom]
  have some : top ≠ 0 := by
    rintro rfl
    rw [Nat.cast_zero, zero_div, magnitude, eq_comm, mul_eq_zero] at same
    rcases same with none | none
    · exact positive (by exact_mod_cast none)
    · exact zpow_ne_zero exponent two none
  have grid : max (leadingExponent top bottom - 52) (-1074) = exponent := by
    rw [leadingExponent_eq_log some divisor, same, log_magnitude positive,
      exponent_eq canonical positive]
  have unit : 0 < bottom * 2 ^ exponent.toNat :=
    Nat.mul_pos (Nat.pos_of_ne_zero divisor) (Nat.two_pow_pos _)
  have bounded : mantissa ≠ 2 ^ (53 : Nat) := Nat.ne_of_lt canonical.1
  simp only [ofFraction, some, if_false, grid, scaled, roundedQuotient_mul mantissa unit, bounded,
    canonical, dite_true]

/-- A whole number lies between the powers of ten that its number of digits tells. -/
theorem ten_pow_digitCount {digits : Nat} (positive : digits ≠ 0) :
    (10 : ℚ) ^ ((digitCount digits : Int) - 1) ≤ digits ∧
      (digits : ℚ) < 10 ^ (digitCount digits : Int) := by
  have some : 0 < digitCount digits := Nat.length_toDigits_pos
  constructor
  · rcases Nat.eq_or_lt_of_le (Nat.succ_le_of_lt some) with single | more
    · rw [← single]
      norm_num
      exact_mod_cast Nat.pos_of_ne_zero positive
    · have fewer : ¬ digitCount digits ≤ digitCount digits - 1 := by omega
      have reached : 10 ^ (digitCount digits - 1) ≤ digits := by
        by_contra short
        exact fewer ((Nat.length_toDigits_le_iff (by decide) (by omega)).mpr (by omega))
      have less : (digitCount digits : Int) - 1 = (digitCount digits - 1 : Nat) := by omega
      rw [less, zpow_natCast]
      exact_mod_cast reached
  · rw [zpow_natCast]
    exact_mod_cast (Nat.length_toDigits_le_iff (by decide) some).mp le_rfl

/-- The values of numbers are neither so great nor so small that they are not looked at. -/
theorem magnitude_bounds (canonical : CanonicalMagnitude mantissa exponent)
    (positive : mantissa ≠ 0) :
    (10 : ℚ) ^ (-330 : Int) ≤ magnitude mantissa exponent ∧
      magnitude mantissa exponent < 10 ^ (310 : Int) := by
  obtain ⟨bound, least, greatest, _⟩ := canonical
  have one : (1 : ℚ) ≤ mantissa := by exact_mod_cast Nat.pos_of_ne_zero positive
  have limit : (mantissa : ℚ) < 2 ^ (53 : Int) := by exact_mod_cast bound
  have two : (1 : ℚ) ≤ 2 := by norm_num
  constructor
  · have powers : (2 : ℚ) ^ (1074 : Nat) ≤ 10 ^ (330 : Nat) := by
      have known : 2 ^ 1074 ≤ 10 ^ 330 := by decide +kernel
      exact_mod_cast known
    calc (10 : ℚ) ^ (-330 : Int) ≤ 2 ^ (-1074 : Int) := by
          rw [zpow_neg, zpow_neg, zpow_ofNat, zpow_ofNat]
          exact inv_anti₀ (by positivity) powers
      _ ≤ 1 * 2 ^ exponent := by
          rw [one_mul]
          exact zpow_le_zpow_right₀ two least
      _ ≤ magnitude mantissa exponent := by
          unfold magnitude
          gcongr
  · have powers : (2 : ℚ) ^ (1024 : Nat) < 10 ^ (310 : Nat) := by
      have known : 2 ^ 1024 < 10 ^ 310 := by decide +kernel
      exact_mod_cast known
    calc magnitude mantissa exponent < 2 ^ (53 : Int) * 2 ^ exponent := by
          unfold magnitude
          gcongr
      _ ≤ 2 ^ (53 : Int) * 2 ^ (971 : Int) :=
          mul_le_mul_of_nonneg_left (zpow_le_zpow_right₀ two greatest) (by positivity)
      _ = 2 ^ (1024 : Int) := by
          have total : (53 : Int) + 971 = 1024 := by decide
          rw [← zpow_add₀ (by norm_num), total]
      _ < 10 ^ (310 : Int) := by
          rw [zpow_ofNat, zpow_ofNat]
          exact powers

/-- A decimal fraction between the bounds is looked at. -/
theorem decimal_bounds {digits : Nat} {power : Int}
    (small : (10 : ℚ) ^ (-330 : Int) ≤ digits * 10 ^ power)
    (great : (digits : ℚ) * 10 ^ power < 10 ^ (310 : Int)) :
    digits ≠ 0 ∧ ¬ 310 < power + digitCount digits ∧ ¬ power + digitCount digits < -330 := by
  have ten : (10 : ℚ) ≠ 0 := by norm_num
  have large : (1 : ℚ) ≤ 10 := by norm_num
  have some : digits ≠ 0 := by
    rintro rfl
    have above : (0 : ℚ) < 10 ^ (-330 : Int) := by positivity
    rw [Nat.cast_zero, zero_mul] at small
    exact absurd small (not_le.mpr above)
  obtain ⟨least, greatest⟩ := ten_pow_digitCount some
  refine ⟨some, fun beyond => absurd great (not_lt.mpr ?_),
    fun beyond => absurd small (not_le.mpr ?_)⟩
  · calc (10 : ℚ) ^ (310 : Int) ≤ 10 ^ ((digitCount digits : Int) - 1 + power) :=
          zpow_le_zpow_right₀ large (by omega)
      _ = 10 ^ ((digitCount digits : Int) - 1) * 10 ^ power := zpow_add₀ ten _ _
      _ ≤ digits * 10 ^ power := by gcongr
  · calc (digits : ℚ) * 10 ^ power < 10 ^ (digitCount digits : Int) * 10 ^ power := by gcongr
      _ = 10 ^ ((digitCount digits : Int) + power) := (zpow_add₀ ten _ _).symm
      _ ≤ 10 ^ (-330 : Int) := zpow_le_zpow_right₀ large (by omega)

/-- A decimal fraction with the value of a number is rounded to the number. -/
theorem ofDecimal_eq (canonical : CanonicalMagnitude mantissa exponent) (positive : mantissa ≠ 0)
    {digits : Nat} {power : Int}
    (same : (digits : ℚ) * 10 ^ power = magnitude mantissa exponent) (negative : Bool) :
    ofDecimal negative digits power = finite negative mantissa exponent canonical := by
  obtain ⟨small, great⟩ := magnitude_bounds canonical positive
  rw [← same] at small great
  obtain ⟨some, notGreat, notSmall⟩ := decimal_bounds small great
  have fraction : ((digits * 10 ^ power.toNat : Nat) : ℚ) / (10 ^ (-power).toNat : Nat) =
      magnitude mantissa exponent := by
    have ten : (10 : ℚ) ≠ 0 := by norm_num
    rw [← same, zpow_eq_div ten]
    push_cast
    rw [mul_div_assoc]
  have divisor : 10 ^ (-power).toNat ≠ 0 := Nat.ne_of_gt (Nat.pow_pos (by decide))
  simp only [ofDecimal, some, if_false, notGreat, notSmall]
  exact ofFraction_eq canonical positive divisor fraction negative

end Rounding

end ShaderSource.Binary64
