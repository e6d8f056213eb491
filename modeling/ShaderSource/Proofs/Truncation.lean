import ShaderSource.Proofs.Literal
import ShaderSource.Proofs.Number.Value

/-!
# Whole literals

As a whole literal a number is written without its fraction. This holds for the
numbers between the least and the greatest whole literal, which are those of 64
bits. A number beyond them is written as the nearer one of the two, which is
another number.
-/

namespace ShaderSource

open Binary64

section Written

variable {number : Binary64}

/-- The whole literal of a number is the nearest one to the number without its fraction. -/
theorem wholeLiteral_eq (bounded : number.isFinite = true) :
    wholeLiteral number =
      toString (max leastWhole (min greatestWhole (truncated number.value))) := by
  obtain ⟨negative, mantissa, exponent, canonical, rfl⟩ := exists_finite bounded
  rw [wholeLiteral, wholePart_eq_truncated negative mantissa exponent canonical]

/-- A finite number is rendered as a whole literal. -/
theorem renderLiteral_int (bounded : number.isFinite = true) :
    renderLiteral (.scalar number) .int = .ok (wholeLiteral number) := by
  have found : finiteScalar .int (.scalar number) = .ok number :=
    finiteScalar_eq_ok.mpr ⟨rfl, bounded⟩
  rw [renderLiteral, found]
  rfl

/-- Finite components are rendered as whole literals in a constructor call. -/
theorem renderLiteral_ivec {numbers : List Binary64}
    (bounded : ∀ number ∈ numbers, number.isFinite = true) :
    renderLiteral (.vector numbers) (.ivec numbers.length) =
      .ok (constructorCall (.ivec numbers.length) (numbers.map wholeLiteral)) := by
  have found : finiteComponents (.ivec numbers.length) (.vector numbers) = .ok numbers :=
    finiteComponents_eq_ok.mpr ⟨rfl, rfl, bounded⟩
  rw [renderLiteral, found]
  rfl

/-- A whole number is the nearest whole literal to itself exactly if it is one of them. -/
theorem nearestWhole_eq_iff (whole : Int) :
    max leastWhole (min greatestWhole whole) = whole ↔
      leastWhole ≤ whole ∧ whole ≤ greatestWhole := by
  unfold leastWhole greatestWhole
  omega

/-- Numbers with the same digits are the same. -/
theorem eq_of_toDigits {left right : Nat} (same : Nat.toDigits 10 left = Nat.toDigits 10 right) :
    left = right := by
  rw [← digitsValue_toDigits left, same, digitsValue_toDigits]

/-- Whole numbers that are written alike are the same. -/
theorem toString_eq_iff {left right : Int} : toString left = toString right ↔ left = right := by
  -- A sign is no digit.
  have unsigned (number : Nat) (rest : List Char) : Nat.toDigits 10 number ≠ '-' :: rest := by
    intro same
    have digits := all_isDigit_toDigits number
    simp [same] at digits
  refine ⟨fun same => ?_, fun same => same ▸ rfl⟩
  have chars := congrArg String.toList same
  cases left with
  | ofNat number =>
    cases right with
    | ofNat other =>
      simp only [Int.toString_eq_repr, Int.repr, Nat.toList_repr] at chars
      rw [eq_of_toDigits chars]
    | negSucc other =>
      simp [Int.toString_eq_repr, Int.repr, Nat.toList_repr] at chars
      exact absurd chars (unsigned _ _)
  | negSucc number =>
    cases right with
    | ofNat other =>
      simp [Int.toString_eq_repr, Int.repr, Nat.toList_repr] at chars
      exact absurd chars.symm (unsigned _ _)
    | negSucc other =>
      simp [Int.toString_eq_repr, Int.repr, Nat.toList_repr] at chars
      rw [Nat.succ.inj (eq_of_toDigits chars)]

/-- The whole literal of a number is the number without its fraction exactly if this is one of the
    whole literals. -/
theorem wholeLiteral_eq_iff (bounded : number.isFinite = true) :
    wholeLiteral number = toString (truncated number.value) ↔
      leastWhole ≤ truncated number.value ∧ truncated number.value ≤ greatestWhole := by
  rw [wholeLiteral_eq bounded, toString_eq_iff, nearestWhole_eq_iff]

end Written

/-- What the whole literals of finite numbers are: the text of the number without its fraction
    exactly where this is a whole literal, and that of the least or the greatest one beyond. A
    number nearer to zero than one gives zero. The components of a vector are written like single
    numbers. -/
theorem renderLiteral_truncated (number : Binary64) (numbers : List Binary64)
    (bounded : number.isFinite = true)
    (components : ∀ component ∈ numbers, component.isFinite = true) :
    ((renderLiteral (.scalar number) .int = .ok (toString (truncated number.value)) ↔
        leastWhole ≤ truncated number.value ∧ truncated number.value ≤ greatestWhole) ∧
      (greatestWhole < truncated number.value →
        renderLiteral (.scalar number) .int = .ok (toString greatestWhole)) ∧
      (truncated number.value < leastWhole →
        renderLiteral (.scalar number) .int = .ok (toString leastWhole)) ∧
      (|number.value| < 1 → renderLiteral (.scalar number) .int = .ok "0")) ∧
    ∃ texts, renderLiteral (.vector numbers) (.ivec numbers.length) =
        .ok (constructorCall (.ivec numbers.length) texts) ∧
      List.Forall₂ (fun component text => renderLiteral (.scalar component) .int = .ok text)
        numbers texts := by
  constructor
  · have ordered : leastWhole < greatestWhole := by decide
    have written := wholeLiteral_eq bounded
    rw [renderLiteral_int bounded]
    refine ⟨?exact, ?greater, ?less, ?small⟩
    case exact => rw [Except.ok.injEq, wholeLiteral_eq_iff bounded]
    case greater =>
      intro beyond
      rw [written, min_eq_left beyond.le, max_eq_right ordered.le]
    case less =>
      intro beyond
      rw [written, min_eq_right (beyond.trans ordered).le, max_eq_left beyond.le]
    case small =>
      intro small
      rw [written, truncated_of_abs_lt_one small]
      rfl
  · refine ⟨numbers.map wholeLiteral, renderLiteral_ivec components, ?_⟩
    rw [List.forall₂_map_right_iff, List.forall₂_same]
    exact fun component member => renderLiteral_int (components component member)

/-- Two and a half below zero is written without the half. -/
theorem renderLiteral_truncated_half :
    ∃ number, read? "-2.5".toList = some number ∧ number.isFinite = true ∧
      truncated number.value = -2 ∧ renderLiteral (.scalar number) .int = .ok "-2" := by
  have worth : (finite true 5629499534213120 (-51) (by decide)).value = -5 / 2 := by
    norm_num [value, magnitude]
  have whole : truncated (-5 / 2) = -2 := by norm_num [truncated]
  refine ⟨finite true 5629499534213120 (-51) (by decide), ?_, rfl, ?_, ?_⟩
  · decide +kernel
  · rw [worth, whole]
  · have text : "-2" = toString (truncated (-5 / 2)) := by rw [whole]; rfl
    rw [text, ← worth]
    refine (renderLiteral_truncated _ [] rfl (List.forall_mem_nil _)).1.1.mpr ?_
    rw [worth, whole]
    decide

/-- The number ten to the nineteenth, which is beyond the whole literals. -/
theorem renderLiteral_beyond :
    ∃ number, read? "1e19".toList = some number ∧ number.isFinite = true ∧
      number.value = 10 ^ 19 ∧
      renderLiteral (.scalar number) .int = .ok "9223372036854775807" ∧
      toString (truncated number.value) = "10000000000000000000" := by
  have worth : (finite false 4882812500000000 11 (by decide)).value = 10 ^ 19 := by
    norm_num [value, magnitude]
  have whole : truncated (10 ^ 19) = 10 ^ 19 := by
    rw [truncated_of_nonneg (by norm_num)]
    norm_num
  refine ⟨finite false 4882812500000000 11 (by decide), ?_, rfl, worth, ?_, ?_⟩
  · decide +kernel
  · decide +kernel
  · rw [worth, whole]
    decide +kernel

end ShaderSource
