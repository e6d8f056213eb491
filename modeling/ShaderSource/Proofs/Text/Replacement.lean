import Mathlib.Data.List.Infix
import ShaderSource.Text.Fields

/-!
# Replacing occurrences part by part

A part of a text is passed over if no occurrence of the pattern begins within it, wherever
the occurrence would end. What is passed over stays as it is, and an occurrence is exchanged
before the rest is searched. So a text whose occurrences are known is replaced one part after
the other, and it is known whether the pattern occurs in it at all.
-/

namespace ShaderSource.Text

variable {pattern chars rest : List Char}

/-- No occurrence of a pattern begins within the first part of a text. -/
def PassedOver (pattern : List Char) : (chars rest : List Char) → Prop
  | [], _ => True
  | char :: chars, rest => ¬ pattern <+: char :: (chars ++ rest) ∧ PassedOver pattern chars rest

/-- A pattern begins nowhere in a text if it does so in neither part of it. -/
theorem passedOver_append {before behind : List Char} :
    PassedOver pattern (before ++ behind) rest ↔
      PassedOver pattern before (behind ++ rest) ∧ PassedOver pattern behind rest := by
  induction before with
  | nil => simp [PassedOver]
  | cons char before inductionHypothesis =>
    simp only [List.cons_append, PassedOver, inductionHypothesis, List.append_assoc, and_assoc]

/-- A part without the first character of the pattern is passed over. -/
theorem passedOver_of_not_mem {first : Char} {others : List Char} (absent : first ∉ chars) :
    PassedOver (first :: others) chars rest := by
  induction chars with
  | nil => trivial
  | cons char chars inductionHypothesis =>
    rw [List.mem_cons, not_or] at absent
    refine ⟨fun occurrence => ?_, inductionHypothesis absent.2⟩
    exact absent.1 (List.cons_prefix_cons.mp occurrence).1

section Replacement

variable (replacement : List Char)

/-- What is passed over stays as it is. -/
theorem replaceAll_passedOver (passed : PassedOver pattern chars rest) :
    replaceAll pattern replacement (chars ++ rest) =
      chars ++ replaceAll pattern replacement rest := by
  induction chars with
  | nil => rfl
  | cons char chars inductionHypothesis =>
    obtain ⟨elsewhere, passed⟩ := passed
    rw [← List.isPrefixOf_iff_prefix] at elsewhere
    rw [List.cons_append, replaceAll, if_neg elsewhere, inductionHypothesis passed, List.cons_append]

/-- An occurrence at the front is exchanged. -/
theorem replaceAll_occurrence (nonempty : pattern ≠ []) :
    replaceAll pattern replacement (pattern ++ rest) =
      replacement ++ replaceAll pattern replacement rest := by
  cases pattern with
  | nil => exact absurd rfl nonempty
  | cons first others =>
    have occurrence : (first :: others).isPrefixOf (first :: (others ++ rest)) = true :=
      List.isPrefixOf_iff_prefix.mpr (List.prefix_append (first :: others) rest)
    rw [List.cons_append, replaceAll, if_pos occurrence]
    simp

end Replacement

/-- A pattern that does not begin within a part occurs in the rest or not at all. -/
theorem occursIn_passedOver (passed : PassedOver pattern chars rest) :
    occursIn pattern (chars ++ rest) = occursIn pattern rest := by
  induction chars with
  | nil => rfl
  | cons char chars inductionHypothesis =>
    obtain ⟨elsewhere, passed⟩ := passed
    rw [← List.isPrefixOf_iff_prefix, Bool.not_eq_true] at elsewhere
    rw [List.cons_append, occursIn, elsewhere, Bool.false_or, inductionHypothesis passed]

/-- A pattern occurs in a text that begins with it. -/
theorem occursIn_occurrence (nonempty : pattern ≠ []) :
    occursIn pattern (pattern ++ rest) = true := by
  cases pattern with
  | nil => exact absurd rfl nonempty
  | cons first others =>
    have occurrence : (first :: others).isPrefixOf (first :: (others ++ rest)) = true :=
      List.isPrefixOf_iff_prefix.mpr (List.prefix_append (first :: others) rest)
    rw [List.cons_append, occursIn, occurrence, Bool.true_or]

end ShaderSource.Text
