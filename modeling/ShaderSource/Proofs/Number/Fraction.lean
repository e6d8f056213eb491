import ShaderSource.Proofs.Number.Written

/-!
# Numbers with a fraction are written with a point

Digits without a point are read as the number nearest to the whole number that
they write. This number is whole itself: a whole number below the limit of the
mantissa is not changed by rounding, and the numbers above it are all whole. So
digits alone never read back as a number with a fraction, and its text has a
point.
-/

namespace ShaderSource.Binary64

-- Powers of whole numbers are those of the core library, also under a richer algebra.
attribute [local instance (high)] instPowNat

open Lexeme

variable {mantissa : Nat} {exponent : Int}

/-- A number without binary places is whole. -/
theorem isWhole_of_nonneg (mantissa : Nat) (whole : 0 ≤ exponent) :
    isWhole mantissa exponent = true := by
  have halvings : (-exponent).toNat = 0 := by omega
  simp [isWhole, denominator, halvings, Nat.mod_one]

/-- A mantissa that makes up for all halvings belongs to a whole number. -/
theorem isWhole_of_multiple {value : Nat} (multiple : mantissa = value * 2 ^ (-exponent).toNat) :
    isWhole mantissa exponent = true := by
  have divides : denominator exponent ∣ numerator mantissa exponent := by
    rw [numerator, denominator, multiple]
    exact Nat.dvd_mul_right_of_dvd (Nat.dvd_mul_left _ value) _
  simpa [isWhole] using Nat.mod_eq_zero_of_dvd divides

/-- How a fraction is rounded to a finite number: it is zero, or a mantissa on the grid that leaves
    53 bits, which may have to be one bit shorter after a carry. -/
theorem eq_of_ofFraction {top bottom : Nat} {negative sign : Bool}
    {canonical : CanonicalMagnitude mantissa exponent}
    (rounded : ofFraction negative top bottom = finite sign mantissa exponent canonical) :
    let grid := max (leadingExponent top bottom - 52) (-1074)
    let nearest := roundedQuotient (top * 2 ^ (-grid).toNat) (bottom * 2 ^ grid.toNat)
    mantissa = 0 ∨ (mantissa = nearest ∧ exponent = grid) ∨
      (nearest = 2 ^ (53 : Nat) ∧ mantissa = 2 ^ (52 : Nat) ∧ exponent = grid + 1) := by
  intro grid nearest
  unfold ofFraction at rounded
  split at rounded
  case isTrue =>
    obtain ⟨_, zero, _⟩ := finite.inj rounded
    exact .inl zero.symm
  case isFalse =>
    dsimp only at rounded
    by_cases carry : nearest = 2 ^ (53 : Nat)
    · simp only [nearest, grid] at carry
      rw [if_pos carry] at rounded
      dsimp only at rounded
      split at rounded
      case isTrue =>
        obtain ⟨_, short, next⟩ := finite.inj rounded
        exact .inr (.inr ⟨carry, short.symm, next.symm⟩)
      case isFalse => simp at rounded
    · simp only [nearest, grid] at carry
      rw [if_neg carry] at rounded
      dsimp only at rounded
      split at rounded
      case isTrue =>
        obtain ⟨_, full, same⟩ := finite.inj rounded
        exact .inr (.inl ⟨full.symm, same.symm⟩)
      case isFalse => simp at rounded

/-- A whole number is rounded to a whole number. On a grid of whole numbers there are no others,
    and on a finer one it is a multiple of the grid. -/
theorem isWhole_of_ofFraction {value : Nat} {negative sign : Bool}
    {canonical : CanonicalMagnitude mantissa exponent}
    (rounded : ofFraction negative value 1 = finite sign mantissa exponent canonical) :
    isWhole mantissa exponent = true := by
  have cases := eq_of_ofFraction rounded
  generalize max (leadingExponent value 1 - 52) (-1074) = grid at cases
  dsimp only at cases
  by_cases whole : 0 ≤ grid
  · rcases cases with rfl | ⟨_, rfl⟩ | ⟨_, _, rfl⟩
    · exact isWhole_of_multiple (Nat.zero_mul _).symm
    · exact isWhole_of_nonneg _ whole
    · exact isWhole_of_nonneg _ (by omega)
  · have single : grid.toNat = 0 := by omega
    have multiple : roundedQuotient (value * 2 ^ (-grid).toNat) (1 * 2 ^ grid.toNat) =
        value * 2 ^ (-grid).toNat := by
      rw [single, Nat.pow_zero, Nat.one_mul]
      have known := roundedQuotient_mul (value * 2 ^ (-grid).toNat) Nat.one_pos
      rwa [Nat.mul_one] at known
    rw [multiple] at cases
    rcases cases with rfl | ⟨full, rfl⟩ | ⟨carry, short, rfl⟩
    · exact isWhole_of_multiple (Nat.zero_mul _).symm
    · exact isWhole_of_multiple full
    · -- After the carry there is one halving less, and the mantissa is half of the multiple.
      have halvings : (-grid).toNat = (-(grid + 1)).toNat + 1 := by omega
      rw [halvings, Nat.pow_succ, ← Nat.mul_assoc] at carry
      have half : mantissa = value * 2 ^ (-(grid + 1)).toNat := by omega
      exact isWhole_of_multiple half

/-- A whole number is rounded to a whole number. -/
theorem isWhole_of_ofDecimal {value : Nat} {negative sign : Bool}
    {canonical : CanonicalMagnitude mantissa exponent}
    (rounded : ofDecimal negative value 0 = finite sign mantissa exponent canonical) :
    isWhole mantissa exponent = true := by
  unfold ofDecimal at rounded
  split at rounded
  case isTrue =>
    obtain ⟨_, rfl, _⟩ := finite.inj rounded
    exact isWhole_of_multiple (Nat.zero_mul _).symm
  case isFalse =>
    dsimp only at rounded
    split at rounded
    case isTrue => simp at rounded
    case isFalse =>
      split at rounded
      case isTrue =>
        obtain ⟨_, rfl, _⟩ := finite.inj rounded
        exact isWhole_of_multiple (Nat.zero_mul _).symm
      case isFalse =>
        simp only [Int.toNat_zero, Nat.pow_zero, Nat.mul_one, Int.neg_zero] at rounded
        exact isWhole_of_ofFraction rounded

/-- What is read from digits alone is whole. -/
theorem isWhole_of_read? {text : List Char} (digits : integerText text = true) {sign : Bool}
    {canonical : CanonicalMagnitude mantissa exponent}
    (read : read? text = some (finite sign mantissa exponent canonical)) :
    isWhole mantissa exponent = true := by
  rw [integerText, Bool.and_eq_true] at digits
  cases text with
  | nil => simp at digits
  | cons first rest =>
    rw [read?_digits digits.2] at read
    exact isWhole_of_ofDecimal (Option.some.inj read)

/-- A number with a fraction is written with a point. -/
theorem magnitudeText_fraction (canonical : CanonicalMagnitude mantissa exponent)
    (fraction : isWhole mantissa exponent = false) :
    floatText (magnitudeText mantissa exponent canonical) = true := by
  have below : exponent < 0 := by
    by_contra whole
    rw [isWhole_of_nonneg mantissa (Int.not_lt.mp whole)] at fraction
    exact Bool.noConfusion fraction
  have positive : mantissa ≠ 0 := by
    rintro rfl
    rw [isWhole_of_multiple (Nat.zero_mul _).symm] at fraction
    exact Bool.noConfusion fraction
  unfold magnitudeText
  rw [if_neg positive]
  dsimp only
  cases found : firstText? _ _ _ gridCount _ with
  | none => exact positional_fraction _ (by omega)
  | some text =>
    have number := firstText?_number found
    have read := firstText?_accepted found
    rw [decide_eq_true_eq] at read
    rw [numberText, Bool.or_eq_true] at number
    rcases number with digits | point
    · rw [isWhole_of_read? digits read] at fraction
      exact Bool.noConfusion fraction
    · exact point

end ShaderSource.Binary64
