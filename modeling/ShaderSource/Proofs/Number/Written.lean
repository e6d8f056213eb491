import ShaderSource.Number.Printer
import ShaderSource.Proofs.Number.Whole
import ShaderSource.Proofs.Token.Piece

/-!
# The text of a number

A finite number is written as digits, with a point and more digits behind it
where it needs them. A whole number has no point: on the grid of the whole
numbers its own digits are read back, so the search for the shortest text never
goes on to a finer grid. Only numbers too great for that grid to be tried have
to be written out exactly, and their exact text has no point either.
-/

namespace ShaderSource.Binary64

-- Powers of whole numbers are those of the core library, also under a richer algebra.
attribute [local instance (high)] instPowNat

open Lexeme

/-- Whether a text consists of digits, or of digits around a point. -/
def numberText (chars : List Char) : Bool := integerText chars || floatText chars

/-- Digits are the text of a number. -/
theorem numberText_of_integer {chars : List Char} (integer : integerText chars = true) :
    numberText chars = true := by
  rw [numberText, integer, Bool.true_or]

/-- Digits with a point are the text of a number. -/
theorem numberText_of_float {chars : List Char} (point : floatText chars = true) :
    numberText chars = true := by
  rw [numberText, point, Bool.or_true]

/-- The decimal digits of a whole number are the text of an integer. -/
theorem integerText_toDigits (value : Nat) : integerText (Nat.toDigits 10 value) = true := by
  have some : Nat.toDigits 10 value ≠ [] := Nat.toDigits_ne_nil
  simp [integerText, some, all_isDigit_toDigits]

section Positional

variable {exponent : Int}

/-- A multiple of a power of ten that is at least one has no point. -/
theorem positional_whole (digits : Nat) (whole : 0 ≤ exponent) :
    positional digits exponent = Nat.toDigits 10 (digits * 10 ^ exponent.toNat) := by
  have places : (-exponent).toNat = 0 := by omega
  simp [positional, places]

/-- With no places behind a point, the digits are the text of an integer. -/
theorem positional_integer (digits : Nat) (whole : 0 ≤ exponent) :
    integerText (positional digits exponent) = true := by
  rw [positional_whole digits whole]
  exact integerText_toDigits _

/-- Some digits with a point before the last places of them. -/
theorem floatText_placed {digits : List Char} {places : Nat}
    (all : digits.all Char.isDigit = true) (positive : 0 < places)
    (enough : places ≤ digits.length) :
    floatText (digits.take (digits.length - places) ++
      '.' :: digits.drop (digits.length - places)) = true := by
  rw [List.all_eq_true] at all
  apply floatText_point
  · exact List.all_eq_true.mpr fun char member => all char (List.mem_of_mem_take member)
  · have length : (digits.drop (digits.length - places)).length = places := by
      rw [List.length_drop]
      omega
    have some : digits.drop (digits.length - places) ≠ [] :=
      List.ne_nil_of_length_pos (by rw [length]; exact positive)
    have tail : (digits.drop (digits.length - places)).all Char.isDigit = true :=
      List.all_eq_true.mpr fun char member => all char (List.mem_of_mem_drop member)
    simp [integerText, some, tail]

/-- A multiple of a power of ten that is below one has a point. -/
theorem positional_fraction (digits : Nat) (fraction : exponent < 0) :
    floatText (positional digits exponent) = true := by
  have places : (-exponent).toNat ≠ 0 := by omega
  simp only [positional, if_neg places]
  have all := all_isDigit_toDigits (digits * 10 ^ exponent.toNat)
  generalize Nat.toDigits 10 (digits * 10 ^ exponent.toNat) = written at all
  apply floatText_placed
  · rw [List.all_append, Bool.and_eq_true]
    exact ⟨by simp, all⟩
  · omega
  · rw [List.length_append, List.length_replicate]
    omega

/-- The digits are the text of a number, with a point or without one. -/
theorem positional_number (digits : Nat) (exponent : Int) :
    numberText (positional digits exponent) = true := by
  by_cases whole : 0 ≤ exponent
  · exact numberText_of_integer (positional_integer digits whole)
  · exact numberText_of_float (positional_fraction digits (Int.lt_of_not_ge whole))

end Positional

section Search

variable {accepts : List Char → Bool} {numerator denominator : Nat}

/-- The search writes some digits on some grid, and it finds only what is accepted. -/
theorem exists_of_firstText? {grids : Nat} {exponent : Int} {text : List Char}
    (found : firstText? accepts numerator denominator grids exponent = some text) :
    ∃ digits grid, text = positional digits grid ∧ accepts text = true := by
  induction grids generalizing exponent with
  | zero => simp [firstText?] at found
  | succ grids inductionHypothesis =>
    rw [firstText?] at found
    split at found
    case h_1 first shown =>
      obtain rfl := Option.some.inj found
      obtain ⟨digits, _, same⟩ := List.mem_map.mp (List.mem_of_find?_eq_some shown)
      exact ⟨digits, exponent, same.symm, List.find?_some shown⟩
    case h_2 => exact inductionHypothesis found

/-- What is found is the text of a number. -/
theorem firstText?_number {grids : Nat} {exponent : Int} {text : List Char}
    (found : firstText? accepts numerator denominator grids exponent = some text) :
    numberText text = true := by
  obtain ⟨digits, grid, rfl, _⟩ := exists_of_firstText? found
  exact positional_number digits grid

/-- What is found was accepted. -/
theorem firstText?_accepted {grids : Nat} {exponent : Int} {text : List Char}
    (found : firstText? accepts numerator denominator grids exponent = some text) :
    accepts text = true := by
  obtain ⟨_, _, _, accepted⟩ := exists_of_firstText? found
  exact accepted

variable {value : Nat}

/-- On the grid of the whole numbers a whole number is the nearer neighbour of itself. -/
theorem neighbours_whole (positive : 0 < denominator) :
    neighbours (value * denominator) denominator 0 = [value, value + 1] := by
  simp [neighbours, positive, Nat.mul_div_cancel value positive]

/-- A whole number is found on the first grid if its digits are accepted. -/
theorem firstText?_zero (positive : 0 < denominator)
    (read : accepts (positional value 0) = true) (grids : Nat) :
    firstText? accepts (value * denominator) denominator (grids + 1) 0 =
      some (positional value 0) := by
  rw [firstText?, neighbours_whole positive]
  simp [read]

/-- Before the grid of the whole numbers is left behind, its digits are taken. -/
theorem firstText?_integer (positive : 0 < denominator)
    (read : accepts (positional value 0) = true) {grids : Nat} {exponent : Int}
    (whole : 0 ≤ exponent) {text : List Char}
    (found : firstText? accepts (value * denominator) denominator grids exponent = some text) :
    integerText text = true := by
  induction grids generalizing exponent with
  | zero => simp [firstText?] at found
  | succ grids inductionHypothesis =>
    by_cases last : exponent = 0
    · subst last
      rw [firstText?_zero positive read] at found
      obtain rfl := Option.some.inj found
      exact positional_integer value whole
    · rw [firstText?] at found
      split at found
      case h_1 first shown =>
        obtain rfl := Option.some.inj found
        obtain ⟨digits, _, rfl⟩ := List.mem_map.mp (List.mem_of_find?_eq_some shown)
        exact positional_integer digits whole
      case h_2 =>
        have further : 0 ≤ exponent - 1 := by omega
        exact inductionHypothesis further found

/-- The grid of the whole numbers is reached if there are enough grids. -/
theorem firstText?_ne_none (positive : 0 < denominator)
    (read : accepts (positional value 0) = true) {grids : Nat} {exponent : Int}
    (whole : 0 ≤ exponent) (enough : exponent < grids) :
    firstText? accepts (value * denominator) denominator grids exponent ≠ none := by
  induction grids generalizing exponent with
  | zero => omega
  | succ grids inductionHypothesis =>
    by_cases last : exponent = 0
    · subst last
      rw [firstText?_zero positive read]
      exact Option.some_ne_none _
    · rw [firstText?]
      split
      case h_1 => exact Option.some_ne_none _
      case h_2 => exact inductionHypothesis (by omega) (by omega)

end Search

section Grids

variable {numerator denominator : Nat}

/-- The leading exponent of a fraction that is at least one is not negative. -/
theorem leadingExponent_nonneg (positive : denominator ≠ 0) (large : denominator ≤ numerator) :
    0 ≤ leadingExponent numerator denominator := by
  have logs : denominator.log2 ≤ numerator.log2 := by
    have below := Nat.log2_self_le positive
    have some : numerator ≠ 0 := by omega
    exact (Nat.le_log2 some).mpr (Nat.le_trans below large)
  simp only [leadingExponent]
  split
  case isTrue => omega
  case isFalse small =>
    by_cases same : denominator.log2 = numerator.log2
    · simp [same, large] at small
    · omega

/-- The exponent of a fraction is at most that of its numerator. -/
theorem leadingExponent_le (numerator denominator : Nat) :
    leadingExponent numerator denominator ≤ numerator.log2 := by
  simp only [leadingExponent]
  split <;> omega

end Grids

/-- The text of a finite magnitude consists of digits, with a point among them at most. -/
theorem magnitudeText_number {mantissa : Nat} {exponent : Int}
    (canonical : CanonicalMagnitude mantissa exponent) :
    numberText (magnitudeText mantissa exponent canonical) = true := by
  unfold magnitudeText
  split
  case isTrue => decide
  case isFalse =>
    dsimp only
    cases found : firstText? _ _ _ gridCount _ with
    | none => exact positional_number _ _
    | some text => exact firstText?_number found

/-- The coarsest grid of a whole number is a grid of whole numbers, and a finer one follows it
    as long as the binary exponent is not positive. -/
theorem coarsestGrid_whole {mantissa : Nat} {exponent : Int}
    (canonical : CanonicalMagnitude mantissa exponent)
    (whole : isWhole mantissa exponent = true) (positive : mantissa ≠ 0) :
    0 ≤ coarsestGrid (numerator mantissa exponent) (denominator exponent) ∧
      (exponent ≤ 0 →
        coarsestGrid (numerator mantissa exponent) (denominator exponent) < gridCount) := by
  have some := Nat.pos_of_ne_zero (wholeValue_ne_zero whole positive)
  have large : denominator exponent ≤ numerator mantissa exponent := by
    calc denominator exponent ≤ wholeValue mantissa exponent * denominator exponent :=
        Nat.le_mul_of_pos_left _ some
      _ = numerator mantissa exponent := wholeValue_mul whole
  have bottom : denominator exponent ≠ 0 := Nat.ne_of_gt (Nat.two_pow_pos _)
  have least := leadingExponent_nonneg bottom large
  have greatest := leadingExponent_le (numerator mantissa exponent) (denominator exponent)
  unfold coarsestGrid
  constructor
  · omega
  · intro small
    have power : exponent.toNat = 0 := by omega
    have single : numerator mantissa exponent = mantissa := by
      rw [numerator, power, Nat.pow_zero, Nat.mul_one]
    have bits : mantissa.log2 < 53 := (Nat.log2_lt positive).mpr canonical.1
    rw [single] at greatest ⊢
    unfold gridCount
    omega

/-- A whole number is written without a point. -/
theorem magnitudeText_whole {mantissa : Nat} {exponent : Int}
    (canonical : CanonicalMagnitude mantissa exponent)
    (whole : isWhole mantissa exponent = true) :
    integerText (magnitudeText mantissa exponent canonical) = true := by
  unfold magnitudeText
  split
  case isTrue => decide
  case isFalse positive =>
    have bottom : 0 < denominator exponent := Nat.two_pow_pos _
    have top : numerator mantissa exponent =
        wholeValue mantissa exponent * denominator exponent := (wholeValue_mul whole).symm
    have read : decide (read? (positional (wholeValue mantissa exponent) 0) =
        some (finite false mantissa exponent canonical)) = true := by
      have digits := read?_wholeValue canonical whole positive
      simpa [positional_whole] using digits
    obtain ⟨least, reached⟩ := coarsestGrid_whole canonical whole positive
    dsimp only
    cases found : firstText? (fun text =>
        decide (read? text = some (finite false mantissa exponent canonical)))
      (numerator mantissa exponent) (denominator exponent) gridCount
      (coarsestGrid (numerator mantissa exponent) (denominator exponent)) with
    | some text =>
      generalize coarsestGrid _ _ = grid at least found
      rw [top] at found
      exact firstText?_integer bottom read least found
    | none =>
      have great : 0 < exponent := by
        by_contra small
        have enough := reached (by omega)
        generalize coarsestGrid _ _ = grid at least found enough
        rw [top] at found
        exact firstText?_ne_none bottom read least enough found
      have halvings : (-exponent).toNat = 0 := by omega
      simp only [Option.getD_none, exactText, halvings]
      exact positional_integer _ (by decide)

end ShaderSource.Binary64
