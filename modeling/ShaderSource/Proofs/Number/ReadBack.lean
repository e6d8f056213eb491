import ShaderSource.Proofs.Number.Written
import ShaderSource.Proofs.Token.Longest

/-!
# The texts of numbers

The text of a number is read as this number again. The search for it takes only
what is read back, and where it finds nothing the exact text is written, which is
a decimal fraction with the value of the number. Other texts may be read as
numbers too, but none that is empty or holds a blank, a comma or a bracket.
-/

namespace ShaderSource.Binary64

-- Powers of whole numbers are those of the core library, also under a richer algebra.
attribute [local instance (high)] instPowNat

open Lexeme

section Decimals

/-- The digits behind some others add their places to the value. -/
theorem digitsValue_append (before : Nat) (digits others : List Char) :
    digitsValue before (digits ++ others) = digitsValue (digitsValue before digits) others :=
  List.foldl_append

/-- Zeros in front of a number change nothing. -/
theorem digitsValue_zeros (zeros : Nat) : digitsValue 0 (List.replicate zeros '0') = 0 := by
  induction zeros with
  | zero => rfl
  | succ zeros inductionHypothesis => exact inductionHypothesis

/-- Digits around a point are read as the decimal fraction that they write. -/
theorem read?_point {whole fraction : List Char} (filled : whole ≠ [])
    (digits : whole.all Char.isDigit = true) (places : fraction.all Char.isDigit = true) :
    read? (whole ++ '.' :: fraction) =
      some (ofDecimal false (digitsValue 0 (whole ++ fraction)) (-fraction.length)) := by
  have point : '.'.isDigit = false := by decide
  have front : (whole ++ '.' :: fraction).takeWhile Char.isDigit = whole := by
    rw [List.takeWhile_append_of_pos (List.all_eq_true.mp digits),
      List.takeWhile_cons_of_neg (by simp [point]), List.append_nil]
  have behind : (whole ++ '.' :: fraction).dropWhile Char.isDigit = '.' :: fraction := by
    rw [List.dropWhile_append_of_pos (List.all_eq_true.mp digits),
      List.dropWhile_cons_of_neg (by simp [point])]
  have shown : fraction.takeWhile Char.isDigit = fraction :=
    List.takeWhile_eq_self_iff.mpr (List.all_eq_true.mp places)
  have ended : fraction.dropWhile Char.isDigit = [] :=
    List.dropWhile_eq_nil_iff.mpr (List.all_eq_true.mp places)
  obtain ⟨first, rest, rfl⟩ := List.exists_cons_of_ne_nil filled
  have digit : first.isDigit = true := by
    rw [List.all_cons, Bool.and_eq_true] at digits
    exact digits.1
  have noWord : ∀ word : String, word.toList.head?.any Char.isDigit = false →
      String.ofList (((first :: rest) ++ '.' :: fraction).map Char.toLower) ≠ word :=
    fun _ plain => ne_word_of_isDigit digit plain
  have unsigned : readSign ((first :: rest) ++ '.' :: fraction) =
      (false, (first :: rest) ++ '.' :: fraction) := readSign_of_isDigit digit
  rw [read?, unsigned]
  simp only [readUnsigned?, front, behind, shown, ended, noWord "inf" (by decide),
    noWord "infinity" (by decide), noWord "nan" (by decide), or_self, if_false]
  rw [digitsValue_append]
  simp [readExponent?]

/-- Digits with a point before the last places of them are read as the decimal fraction. -/
theorem read?_placed {digits : List Char} {places : Nat} (all : digits.all Char.isDigit = true)
    (enough : places < digits.length) :
    read? (digits.take (digits.length - places) ++ '.' :: digits.drop (digits.length - places)) =
      some (ofDecimal false (digitsValue 0 digits) (-places)) := by
  have count : digits.length - (digits.length - places) = places := by omega
  rw [List.all_eq_true] at all
  rw [read?_point, List.take_append_drop, List.length_drop, count]
  · intro empty
    have length := congrArg List.length empty
    rw [List.length_take, List.length_nil] at length
    omega
  · exact List.all_eq_true.mpr fun char member => all char (List.mem_of_mem_take member)
  · exact List.all_eq_true.mpr fun char member => all char (List.mem_of_mem_drop member)

/-- A written decimal fraction is read as its value. -/
theorem read?_positional (digits : Nat) (exponent : Int) :
    read? (positional digits exponent) =
      some (ofDecimal false (digits * 10 ^ exponent.toNat) (-(-exponent).toNat)) := by
  have all := all_isDigit_toDigits (digits * 10 ^ exponent.toNat)
  have value := digitsValue_toDigits (digits * 10 ^ exponent.toNat)
  rw [positional]
  generalize shown : Nat.toDigits 10 (digits * 10 ^ exponent.toNat) = written at all value ⊢
  by_cases single : (-exponent).toNat = 0
  · obtain ⟨first, rest, rfl⟩ : ∃ first rest, written = first :: rest :=
      List.exists_cons_of_ne_nil (shown ▸ Nat.toDigits_ne_nil)
    simp only [single, if_true]
    rw [read?_digits all, value]
    rfl
  · simp only [single, if_false]
    generalize (-exponent).toNat = places
    rw [read?_placed, digitsValue_append, digitsValue_zeros, value]
    · rw [List.all_append, Bool.and_eq_true]
      exact ⟨by simp, all⟩
    · rw [List.length_append, List.length_replicate]
      omega

end Decimals

section Exact

variable {mantissa : Nat} {exponent : Int}

/-- The exact text of a number is read as the number. -/
theorem read?_exactText (canonical : CanonicalMagnitude mantissa exponent)
    (positive : mantissa ≠ 0) :
    read? (exactText mantissa exponent) = some (finite false mantissa exponent canonical) := by
  have worth : ((mantissa * 2 ^ exponent.toNat * 5 ^ (-exponent).toNat : Nat) : ℚ) *
      10 ^ (-((-exponent).toNat : Int)) = magnitude mantissa exponent := by
    have ten : (10 : ℚ) ^ (-exponent).toNat = 5 ^ (-exponent).toNat * 2 ^ (-exponent).toNat := by
      rw [← mul_pow]
      norm_num
    rw [magnitude_eq_div, numerator, denominator, zpow_neg, zpow_natCast, ten]
    push_cast
    field_simp
  have none : (-((-exponent).toNat : Int)).toNat = 0 := by omega
  have places : (-(-((-exponent).toNat : Int))).toNat = (-exponent).toNat := by omega
  rw [exactText, read?_positional, none, places, Nat.pow_zero, Nat.mul_one,
    ofDecimal_eq canonical positive worth]

/-- The text of a magnitude is read as the number. -/
theorem read?_magnitudeText (canonical : CanonicalMagnitude mantissa exponent) :
    read? (magnitudeText mantissa exponent canonical) =
      some (finite false mantissa exponent canonical) := by
  by_cases zero : mantissa = 0
  · subst zero
    obtain rfl : exponent = -1074 := by
      obtain ⟨_, _, _, full | least⟩ := canonical
      · exact absurd full (by decide)
      · exact least
    have read : read? ['0'] = some (Binary64.zero false) := by decide
    rw [magnitudeText, if_pos rfl]
    exact read
  · unfold magnitudeText
    rw [if_neg zero]
    dsimp only
    cases found : firstText? _ _ _ gridCount _ with
    | none => exact read?_exactText canonical zero
    | some text =>
      have accepted := firstText?_accepted found
      rwa [decide_eq_true_eq] at accepted

end Exact

section Signs

/-- A minus sign turns a rounded fraction into its opposite. -/
theorem ofFraction_negative (top bottom : Nat) :
    ofFraction true top bottom = (ofFraction false top bottom).negate := by
  unfold ofFraction
  split
  case isTrue => rfl
  case isFalse =>
    dsimp only
    rw [apply_dite negate]
    rfl

/-- A decimal fraction below zero is read as the negated one above. -/
theorem ofDecimal_negative (digits : Nat) (power : Int) :
    ofDecimal true digits power = (ofDecimal false digits power).negate := by
  unfold ofDecimal
  split
  case isTrue => rfl
  case isFalse =>
    dsimp only
    split
    case isTrue => rfl
    case isFalse =>
      split
      case isTrue => rfl
      case isFalse => exact ofFraction_negative _ _

/-- Behind a minus sign the negated number is read. -/
theorem readUnsigned?_negative (chars : List Char) :
    readUnsigned? true chars = (readUnsigned? false chars).map negate := by
  unfold readUnsigned?
  dsimp only
  split
  case isTrue => rfl
  case isFalse =>
    split
    case isTrue => rfl
    case isFalse =>
      split
      all_goals
        split
        case isTrue => rfl
        case isFalse =>
          rw [Option.map_map]
          congr 1
          funext exponent
          exact ofDecimal_negative _ _

/-- A minus sign in front of digits turns the number into its opposite. -/
theorem read?_minus {chars : List Char} (number : numberText chars = true) :
    read? ('-' :: chars) = (read? chars).map negate := by
  have unsigned : readSign chars = (false, chars) := by
    unfold readSign
    split
    case h_1 => exact absurd number (by simp [numberText, integerText, floatText])
    case h_2 => exact absurd number (by simp [numberText, integerText, floatText])
    case h_3 => rfl
  rw [read?, read?, unsigned]
  exact readUnsigned?_negative chars

/-- The text of every number is read as the number. -/
theorem read?_toChars (number : Binary64) : read? number.toChars = some number := by
  cases number with
  | nan => decide
  | infinite negative => cases negative <;> decide
  | finite negative mantissa exponent canonical =>
    have read := read?_magnitudeText canonical
    cases negative with
    | false => exact read
    | true =>
      have opposite := read?_minus (magnitudeText_number canonical)
      rw [read] at opposite
      exact opposite

end Signs

section Characters

/-- A character that can stand in the text of a number: a letter, a digit, a sign or a point. -/
def isNumeral (char : Char) : Bool :=
  char.isAlphanum || char == '+' || char == '-' || char == '.'

/-- Digits are characters of numbers. -/
theorem isNumeral_of_isDigit {char : Char} (digit : char.isDigit = true) :
    isNumeral char = true := by
  simp [isNumeral, Char.isAlphanum, digit]

/-- A character whose small letter is a letter is one. -/
theorem isAlpha_of_toLower {char : Char} (letter : char.toLower.isAlpha = true) :
    char.isAlpha = true := by
  unfold Char.toLower at letter
  split at letter
  case isTrue capital =>
    have upper : char.isUpper = true := decide_eq_true capital
    exact Bool.or_eq_true_iff.mpr (.inl upper)
  case isFalse => exact letter

/-- There are no blanks, commas and brackets in the text of a number. -/
theorem not_separator {char : Char} (numeral : isNumeral char = true) :
    Text.isBlank char = false ∧ char ≠ ',' ∧ char ≠ '[' ∧ char ≠ ']' := by
  refine ⟨?_, ?_, ?_, ?_⟩
  · simp only [isNumeral, Bool.or_eq_true, beq_iff_eq] at numeral
    rcases numeral with ((letter | rfl) | rfl) | rfl
    · apply not_blank_of_continuesIdentifier
      rw [Char.isAlphanum, Bool.or_eq_true] at letter
      rcases letter with letter | digit
      · simp [continuesIdentifier, beginsIdentifier, letter]
      · simp [continuesIdentifier, digit]
    all_goals decide
  all_goals
    rintro rfl
    exact absurd numeral (by decide)

/-- The characters of a word are letters, whichever are capital. -/
theorem isNumeral_of_word {chars : List Char} {word : String}
    (letters : word.toList.all Char.isAlpha = true)
    (same : String.ofList (chars.map Char.toLower) = word) :
    ∀ char ∈ chars, isNumeral char = true := by
  intro char member
  have small : char.toLower ∈ word.toList := by
    rw [← same, String.toList_ofList]
    exact List.mem_map_of_mem member
  have letter := isAlpha_of_toLower (List.all_eq_true.mp letters _ small)
  simp [isNumeral, Char.isAlphanum, letter]

/-- A sign is a character of numbers. -/
theorem isNumeral_of_readSign {chars : List Char}
    (rest : ∀ char ∈ (readSign chars).2, isNumeral char = true) :
    ∀ char ∈ chars, isNumeral char = true := by
  unfold readSign at rest
  split at rest
  case h_1 => exact List.forall_mem_cons.mpr ⟨by decide, rest⟩
  case h_2 => exact List.forall_mem_cons.mpr ⟨by decide, rest⟩
  case h_3 => exact rest

/-- What is read as an exponent consists of numerals. -/
theorem isNumeral_of_readExponent? {chars : List Char} {exponent : Int}
    (read : readExponent? chars = some exponent) : ∀ char ∈ chars, isNumeral char = true := by
  cases chars with
  | nil => simp
  | cons mark rest =>
    rw [readExponent?] at read
    split at read
    case isFalse => simp at read
    case isTrue marked =>
      dsimp only at read
      split at read
      case isTrue => simp at read
      case isFalse digits =>
        rw [Bool.or_eq_true, not_or, Bool.not_eq_true', Bool.not_eq_false] at digits
        have letter : isNumeral mark = true := by rcases marked with rfl | rfl <;> decide
        refine List.forall_mem_cons.mpr ⟨letter, isNumeral_of_readSign fun char member => ?_⟩
        exact isNumeral_of_isDigit (List.all_eq_true.mp digits.2 char member)

/-- The characters of a run of digits and of what follows it. -/
theorem isNumeral_of_digits {chars : List Char}
    (rest : ∀ char ∈ chars.dropWhile Char.isDigit, isNumeral char = true) :
    ∀ char ∈ chars, isNumeral char = true := by
  intro char member
  rw [← List.takeWhile_append_dropWhile (p := Char.isDigit) (l := chars)] at member
  rcases List.mem_append.mp member with digit | later
  · exact isNumeral_of_isDigit (List.all_eq_true.mp List.all_takeWhile char digit)
  · exact rest char later

/-- What is read as a number without a sign is not empty and consists of numerals. -/
theorem isNumeral_of_readUnsigned? {negative : Bool} {chars : List Char} {number : Binary64}
    (read : readUnsigned? negative chars = some number) :
    chars ≠ [] ∧ ∀ char ∈ chars, isNumeral char = true := by
  constructor
  · rintro rfl
    have nothing : readUnsigned? negative [] = none := by cases negative <;> decide
    rw [nothing] at read
    exact absurd read (by simp)
  · unfold readUnsigned? at read
    dsimp only at read
    split at read
    case isTrue word =>
      rcases word with same | same
      · exact isNumeral_of_word (by decide) same
      · exact isNumeral_of_word (by decide) same
    case isFalse =>
      split at read
      case isTrue same => exact isNumeral_of_word (by decide) same
      case isFalse =>
        apply isNumeral_of_digits
        split at read
        case h_1 rest behind =>
          split at read
          case isTrue => simp at read
          case isFalse =>
            obtain ⟨exponent, power, _⟩ := Option.map_eq_some_iff.mp read
            rw [behind]
            refine List.forall_mem_cons.mpr ⟨by decide, ?_⟩
            exact isNumeral_of_digits (isNumeral_of_readExponent? power)
        case h_2 =>
          split at read
          case isTrue => simp at read
          case isFalse =>
            obtain ⟨exponent, power, _⟩ := Option.map_eq_some_iff.mp read
            exact isNumeral_of_readExponent? power

/-- What is read as a number is not empty and consists of numerals. -/
theorem isNumeral_of_read? {chars : List Char} {number : Binary64}
    (read : read? chars = some number) :
    chars ≠ [] ∧ ∀ char ∈ chars, isNumeral char = true := by
  obtain ⟨filled, numerals⟩ := isNumeral_of_readUnsigned? read
  refine ⟨?_, isNumeral_of_readSign numerals⟩
  rintro rfl
  exact filled rfl

end Characters

end ShaderSource.Binary64
