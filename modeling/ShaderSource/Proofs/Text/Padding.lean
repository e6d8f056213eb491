import Mathlib.Data.List.Basic
import ShaderSource.Text.Blank
import ShaderSource.Text.Fields

/-!
# Blanks around a text

A text without the blanks at its ends is the only part of it that neither begins
nor ends with a blank and has nothing but blanks around it. The fields of a text
are the pieces between the separators.
-/

namespace ShaderSource.Text

/-- A text is another one with blanks around it. -/
def Padded (text core : List Char) : Prop :=
  ∃ left right, left.all isBlank = true ∧ right.all isBlank = true ∧
    text = left ++ core ++ right

/-- A text has characters, and neither the first one nor the last one is a blank. -/
structure Solid (text : List Char) : Prop where
  filled : text ≠ []
  first : ∀ char ∈ text.head?, isBlank char = false
  last : ∀ char ∈ text.getLast?, isBlank char = false

section Blanks

variable {text core inner blanks : List Char}

/-- A text is padded with nothing. -/
theorem Padded.refl (text : List Char) : Padded text text :=
  ⟨[], [], rfl, rfl, (List.append_nil text).symm⟩

/-- A padded text may be padded again. -/
theorem Padded.trans (outer : Padded text core) (padded : Padded core inner) :
    Padded text inner := by
  obtain ⟨left, right, leftBlank, rightBlank, rfl⟩ := outer
  obtain ⟨before, behind, beforeBlank, behindBlank, rfl⟩ := padded
  refine ⟨left ++ before, behind ++ right, ?_, ?_, by simp only [List.append_assoc]⟩
  · rw [List.all_append, leftBlank, beforeBlank, Bool.and_self]
  · rw [List.all_append, behindBlank, rightBlank, Bool.and_self]

/-- Blanks in front of a text are dropped with those of the text. -/
theorem dropWhile_blanks (all : blanks.all isBlank = true) (text : List Char) :
    (blanks ++ text).dropWhile isBlank = text.dropWhile isBlank :=
  List.dropWhile_append_of_pos (List.all_eq_true.mp all)

/-- Nothing is dropped of a text that begins with no blank. -/
theorem dropWhile_solid (first : ∀ char ∈ text.head?, isBlank char = false) :
    text.dropWhile isBlank = text := by
  cases text with
  | nil => rfl
  | cons char rest => exact List.dropWhile_cons_of_neg (by rw [first char rfl]; decide)

/-- The blanks around a text that begins and ends with other characters are trimmed. -/
theorem trim_of_padded (padded : Padded text core) (solid : Solid core) : trim text = core := by
  obtain ⟨left, right, leftBlank, rightBlank, rfl⟩ := padded
  obtain ⟨filled, first, last⟩ := solid
  have front : (core ++ right).dropWhile isBlank = core ++ right := by
    apply dropWhile_solid
    rwa [List.head?_append_of_ne_nil _ filled]
  have back : (right.reverse ++ core.reverse).dropWhile isBlank = core.reverse := by
    rw [dropWhile_blanks (by rwa [List.all_reverse])]
    apply dropWhile_solid
    rwa [List.head?_reverse]
  rw [trim, List.append_assoc, dropWhile_blanks leftBlank, front, List.reverse_append, back,
    List.reverse_reverse]

/-- A text is what is left of it with the trimmed blanks around it. -/
theorem padded_trim (text : List Char) : Padded text (trim text) := by
  have split (chars : List Char) :
      chars.takeWhile isBlank ++ chars.dropWhile isBlank = chars :=
    List.takeWhile_append_dropWhile
  refine ⟨text.takeWhile isBlank, ((text.dropWhile isBlank).reverse.takeWhile isBlank).reverse,
    List.all_takeWhile, ?_, ?_⟩
  · rw [List.all_reverse]
    exact List.all_takeWhile
  · rw [trim, List.append_assoc, ← List.reverse_append, split, List.reverse_reverse, split]

end Blanks

section Separators

variable {separator : Char} {item : List Char}

/-- A text without separators is its only field. -/
theorem fields_of_notMem (absent : separator ∉ item) : fields separator item = [item] := by
  induction item with
  | nil => rfl
  | cons char rest inductionHypothesis =>
    rw [List.mem_cons, not_or] at absent
    rw [fields, if_neg fun same => absent.1 same.symm, inductionHypothesis absent.2]

/-- The first field of a text stands before the first separator, the others behind it. -/
theorem fields_append (absent : separator ∉ item) (rest : List Char) :
    fields separator (item ++ separator :: rest) = item :: fields separator rest := by
  induction item with
  | nil => rw [List.nil_append, fields, if_pos rfl]
  | cons char others inductionHypothesis =>
    rw [List.mem_cons, not_or] at absent
    rw [List.cons_append, fields, if_neg fun same => absent.1 same.symm,
      inductionHypothesis absent.2]

end Separators

end ShaderSource.Text
