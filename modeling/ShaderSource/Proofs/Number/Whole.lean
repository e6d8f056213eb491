import Mathlib.Data.List.TakeWhile
import ShaderSource.Number.Reader
import ShaderSource.Proofs.Number.Rounding

/-!
# Whole numbers are read back from their digits

The digits of a whole number, written without a point, are read as this number:
they are a decimal fraction with its value.
-/

namespace ShaderSource.Binary64

-- Powers of whole numbers are those of the core library, also under a richer algebra.
attribute [local instance (high)] instPowNat

/-- The value of a whole magnitude. -/
def wholeValue (mantissa : Nat) (exponent : Int) : Nat :=
  numerator mantissa exponent / denominator exponent

section Whole

variable {mantissa : Nat} {exponent : Int}

/-- A whole magnitude is its value, as an equation without a quotient. -/
theorem wholeValue_mul (whole : isWhole mantissa exponent = true) :
    wholeValue mantissa exponent * 2 ^ (-exponent).toNat = mantissa * 2 ^ exponent.toNat := by
  have divides : denominator exponent ∣ numerator mantissa exponent :=
    Nat.dvd_of_mod_eq_zero (by simpa [isWhole] using whole)
  exact Nat.div_mul_cancel divides

/-- A whole number is zero only if its mantissa is. -/
theorem wholeValue_ne_zero (whole : isWhole mantissa exponent = true) (positive : mantissa ≠ 0) :
    wholeValue mantissa exponent ≠ 0 := by
  intro zero
  have same := wholeValue_mul whole
  have bigger : mantissa * 2 ^ exponent.toNat ≠ 0 :=
    Nat.mul_ne_zero positive (Nat.ne_of_gt (Nat.two_pow_pos _))
  rw [zero, Nat.zero_mul] at same
  exact bigger same.symm

/-- The value of a whole magnitude is a whole number. -/
theorem wholeValue_eq (whole : isWhole mantissa exponent = true) :
    (wholeValue mantissa exponent : ℚ) = magnitude mantissa exponent := by
  have same : wholeValue mantissa exponent * denominator exponent =
      numerator mantissa exponent := wholeValue_mul whole
  have divisor : (denominator exponent : ℚ) ≠ 0 := by
    exact_mod_cast Nat.ne_of_gt (Nat.two_pow_pos _)
  rw [magnitude_eq_div, eq_div_iff divisor]
  exact_mod_cast same

/-- The value of a whole number as a decimal fraction is rounded to the number. -/
theorem ofDecimal_wholeValue (canonical : CanonicalMagnitude mantissa exponent)
    (whole : isWhole mantissa exponent = true) (positive : mantissa ≠ 0) :
    ofDecimal false (wholeValue mantissa exponent) 0 =
      finite false mantissa exponent canonical := by
  refine ofDecimal_eq canonical positive ?_ false
  rw [zpow_zero, mul_one, wholeValue_eq whole]

end Whole

section Digits

/-- The decimal digits of a number are digits. -/
theorem all_isDigit_toDigits (value : Nat) : (Nat.toDigits 10 value).all Char.isDigit = true :=
  List.all_eq_true.mpr fun _ member =>
    Nat.isDigit_of_mem_toDigits (by decide) (by decide) member

/-- The decimal digits of a number are read as it. -/
theorem digitsValue_toDigits (value : Nat) : digitsValue 0 (Nat.toDigits 10 value) = value := by
  have known : Nat.ofDigitChars 10 (Nat.toDigits 10 value) 0 = value :=
    Nat.ofDigitChars_ten_toDigits
  rwa [Nat.ofDigitChars_eq_foldl] at known

/-- A digit has no other letter case. -/
theorem toLower_of_isDigit {char : Char} (digit : char.isDigit = true) : char.toLower = char := by
  simp only [Char.isDigit, Bool.and_eq_true, decide_eq_true_eq] at digit
  have small : ¬ (char.val ≥ 65 ∧ char.val ≤ 90) := by
    rintro ⟨large, _⟩
    exact absurd (UInt32.le_trans large digit.2) (by decide)
  exact dif_neg small

section Unsigned

variable {first : Char} {rest : List Char}

/-- No sign is a digit. -/
theorem readSign_of_isDigit (digit : first.isDigit = true) :
    readSign (first :: rest) = (false, first :: rest) := by
  unfold readSign
  split
  case h_1 same =>
    obtain ⟨rfl, _⟩ := List.cons.inj same
    exact absurd digit (by decide)
  case h_2 same =>
    obtain ⟨rfl, _⟩ := List.cons.inj same
    exact absurd digit (by decide)
  case h_3 => rfl

/-- No word begins with a digit. -/
theorem ne_word_of_isDigit (digit : first.isDigit = true) {word : String}
    (plain : word.toList.head?.any Char.isDigit = false) :
    String.ofList ((first :: rest).map Char.toLower) ≠ word := by
  intro same
  rw [← same, String.toList_ofList] at plain
  simp [toLower_of_isDigit digit, digit] at plain

/-- Digits alone are read as the whole number that they write. -/
theorem read?_digits (all : (first :: rest).all Char.isDigit = true) :
    read? (first :: rest) = some (ofDecimal false (digitsValue 0 (first :: rest)) 0) := by
  have digit : first.isDigit = true := by
    rw [List.all_cons, Bool.and_eq_true] at all
    exact all.1
  have front : (first :: rest).takeWhile Char.isDigit = first :: rest :=
    List.takeWhile_eq_self_iff.mpr (List.all_eq_true.mp all)
  have behind : (first :: rest).dropWhile Char.isDigit = [] :=
    List.dropWhile_eq_nil_iff.mpr (List.all_eq_true.mp all)
  have noWord : ∀ word : String, word.toList.head?.any Char.isDigit = false →
      String.ofList ((first :: rest).map Char.toLower) ≠ word :=
    fun _ plain => ne_word_of_isDigit digit plain
  rw [read?, readSign_of_isDigit digit]
  simp only [readUnsigned?, front, behind, noWord "inf" (by decide), noWord "infinity" (by decide),
    noWord "nan" (by decide), or_self, if_false]
  rfl

end Unsigned

/-- The digits of a whole number are read as this number. -/
theorem read?_wholeValue {mantissa : Nat} {exponent : Int}
    (canonical : CanonicalMagnitude mantissa exponent)
    (whole : isWhole mantissa exponent = true) (positive : mantissa ≠ 0) :
    read? (Nat.toDigits 10 (wholeValue mantissa exponent)) =
      some (finite false mantissa exponent canonical) := by
  cases shown : Nat.toDigits 10 (wholeValue mantissa exponent) with
  | nil => exact absurd shown Nat.toDigits_ne_nil
  | cons first rest =>
    have all := all_isDigit_toDigits (wholeValue mantissa exponent)
    have value := digitsValue_toDigits (wholeValue mantissa exponent)
    rw [shown] at all value
    rw [read?_digits all, value, ofDecimal_wholeValue canonical whole positive]

end Digits

end ShaderSource.Binary64
