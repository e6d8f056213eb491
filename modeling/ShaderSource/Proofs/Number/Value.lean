import Mathlib.Data.Int.Log
import Mathlib.Data.Rat.Floor
import ShaderSource.Number.Binary64

/-!
# The values of numbers

The value of a finite number is a rational number. It is the fraction that the
number is rounded from, and the whole part of the number is its value with the
fraction dropped.
-/

namespace ShaderSource.Binary64

-- Powers of whole numbers are those of the core library, also under a richer algebra.
attribute [local instance (high)] instPowNat

/-- The value of a finite magnitude. -/
def magnitude (mantissa : Nat) (exponent : Int) : ℚ := mantissa * (2 : ℚ) ^ exponent

/-- The value of a finite number. For the other numbers zero stands in its place. -/
def value : Binary64 → ℚ
  | finite negative mantissa exponent _ =>
    if negative then -magnitude mantissa exponent else magnitude mantissa exponent
  | infinite _ | nan => 0

/-- A rational number with its fraction dropped, which brings it nearer to zero. -/
def truncated (value : ℚ) : Int := if value < 0 then ⌈value⌉ else ⌊value⌋

section Magnitude

variable {mantissa : Nat} {exponent : Int}

/-- The magnitude of a number has no sign. -/
theorem magnitude_nonneg : 0 ≤ magnitude mantissa exponent :=
  mul_nonneg (Nat.cast_nonneg mantissa) (zpow_nonneg (by norm_num) exponent)

/-- A power is the fraction of two powers of which one at least is one. -/
theorem zpow_eq_div {base : ℚ} (nonzero : base ≠ 0) (power : Int) :
    base ^ power = base ^ power.toNat / base ^ (-power).toNat := by
  have parts : power = (power.toNat : Int) - (-power).toNat := by omega
  calc base ^ power = base ^ ((power.toNat : Int) - (-power).toNat) := by rw [← parts]
    _ = base ^ power.toNat / base ^ (-power).toNat := by
        rw [zpow_sub₀ nonzero, zpow_natCast, zpow_natCast]

/-- The value of a magnitude is its fraction of whole numbers. -/
theorem magnitude_eq_div (mantissa : Nat) (exponent : Int) :
    magnitude mantissa exponent = (numerator mantissa exponent : ℚ) / denominator exponent := by
  have two : (2 : ℚ) ≠ 0 := by norm_num
  rw [magnitude, zpow_eq_div two, numerator, denominator, Nat.cast_mul, Nat.cast_pow, Nat.cast_pow,
    Nat.cast_ofNat, mul_div_assoc]

end Magnitude

section Truncation

/-- From zero on, truncating is rounding down. -/
theorem truncated_of_nonneg {value : ℚ} (positive : 0 ≤ value) : truncated value = ⌊value⌋ := by
  rw [truncated, if_neg (not_lt.mpr positive)]

/-- The opposite number is the opposite without the fraction too. -/
theorem truncated_neg (value : ℚ) : truncated (-value) = -truncated value := by
  rcases lt_trichotomy value 0 with below | rfl | above
  · have positive : ¬ -value < 0 := by linarith
    rw [truncated, truncated, if_neg positive, if_pos below, Int.floor_neg]
  · simp [truncated]
  · have negative : -value < 0 := by linarith
    rw [truncated, truncated, if_pos negative, if_neg (not_lt.mpr above.le), Int.ceil_neg]

/-- Nothing but the fraction is dropped. -/
theorem truncated_of_abs_lt_one {value : ℚ} (small : |value| < 1) : truncated value = 0 := by
  obtain ⟨least, greatest⟩ := abs_lt.mp small
  by_cases negative : value < 0
  · rw [truncated, if_pos negative, Int.ceil_eq_zero_iff]
    exact ⟨least, negative.le⟩
  · rw [truncated, if_neg negative, Int.floor_eq_zero_iff]
    exact ⟨not_lt.mp negative, greatest⟩

/-- The whole part of a finite number is its value without the fraction. -/
theorem wholePart_eq_truncated (negative : Bool) (mantissa : Nat) (exponent : Int)
    (canonical : CanonicalMagnitude mantissa exponent) :
    wholePart negative mantissa exponent =
      truncated (finite negative mantissa exponent canonical).value := by
  have whole : truncated (magnitude mantissa exponent) =
      (numerator mantissa exponent / denominator exponent : Nat) := by
    rw [truncated_of_nonneg magnitude_nonneg, magnitude_eq_div, Rat.floor_natCast_div_natCast,
      Int.natCast_ediv]
  cases negative with
  | false => exact whole.symm
  | true =>
    have opposite : (finite true mantissa exponent canonical).value =
        -magnitude mantissa exponent := rfl
    rw [opposite, truncated_neg, whole]
    rfl

end Truncation

end ShaderSource.Binary64
