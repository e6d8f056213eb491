import ShaderSource.Diagnostic.Snippet

/-!
# Rows cell by cell

A text that is put into a row stands there from its column on. What is before it and
what is behind it stays; where the row was too short before, it is filled up with
blanks.
-/

namespace ShaderSource.Row

variable {row : Row} {column : Nat} {text : List Char}

/-- To put nothing into a row leaves it. -/
theorem put_nil (row : Row) (column : Nat) : row.put column [] = row := rfl

/-- A row with some text in it, as its parts. -/
theorem put_eq (filled : text ≠ []) (row : Row) (column : Nat) :
    row.put column text =
      (row ++ List.replicate (column - row.length) ' ').take column ++ text ++
        (row ++ List.replicate (column - row.length) ' ').drop (column + text.length) := by
  rw [put, if_neg (by simpa using filled)]

/-- The cells in front of a column are as many as the column says. -/
theorem length_front (row : Row) (column : Nat) :
    ((row ++ List.replicate (column - row.length) ' ').take column).length = column := by
  rw [List.length_take, List.length_append, List.length_replicate]
  omega

/-- The text stands in its place. -/
theorem getElem?_put_inside {index : Nat} (inside : index < text.length) :
    (row.put column text)[column + index]? = text[index]? := by
  have filled : text ≠ [] := List.ne_nil_of_length_pos (Nat.zero_lt_of_lt inside)
  rw [put_eq filled, List.append_assoc, List.getElem?_append_right (by rw [length_front]; omega),
    length_front, Nat.add_sub_cancel_left, List.getElem?_append_left inside]

/-- The text begins in its column. -/
theorem getElem?_put_cons (row : Row) (column : Nat) (first : Char) (rest : List Char) :
    (row.put column (first :: rest))[column]? = some first := by
  have inside : 0 < (first :: rest).length := Nat.zero_lt_succ rest.length
  have found : (row.put column (first :: rest))[column + 0]? = (first :: rest)[0]? :=
    getElem?_put_inside inside
  exact found

/-- What is behind the text stays. -/
theorem getElem?_put_behind {index : Nat} (behind : column + text.length ≤ index) :
    (row.put column text)[index]? = row[index]? := by
  by_cases filled : text = []
  · rw [filled, put_nil]
  · rw [put_eq filled, List.append_assoc,
      List.getElem?_append_right (by rw [length_front]; omega), length_front,
      List.getElem?_append_right (by omega), List.getElem?_drop]
    have same : column + text.length + (index - column - text.length) = index := by omega
    rw [same]
    by_cases long : column ≤ row.length
    · rw [Nat.sub_eq_zero_of_le long, List.replicate_zero, List.append_nil]
    · rw [List.getElem?_eq_none (by rw [List.length_append, List.length_replicate]; omega),
        List.getElem?_eq_none (by omega)]

/-- What is before the text stays. -/
theorem getElem?_put_before {index : Nat} {cell : Char} (before : index < column)
    (held : row[index]? = some cell) : (row.put column text)[index]? = some cell := by
  by_cases filled : text = []
  · rwa [filled, put_nil]
  · obtain ⟨inside, _⟩ := List.getElem?_eq_some_iff.mp held
    rw [put_eq filled, List.append_assoc,
      List.getElem?_append_left (by rwa [length_front]), List.getElem?_take_of_lt before,
      List.getElem?_append_left inside, held]

/-- Every cell is one of the text or one of the row before, or it is a blank in front of the
    text. -/
theorem forall_put {holds : Nat → Char → Prop}
    (old : ∀ index cell, row[index]? = some cell → holds index cell)
    (new : ∀ index cell, text[index]? = some cell → holds (column + index) cell)
    (blank : ∀ index, index < column → holds index ' ') :
    ∀ index cell, (row.put column text)[index]? = some cell → holds index cell := by
  intro index cell found
  by_cases filled : text = []
  · rw [filled, put_nil] at found
    exact old index cell found
  rcases Nat.lt_or_ge index column with before | after
  · rw [put_eq filled, List.append_assoc,
      List.getElem?_append_left (by rwa [length_front]), List.getElem?_take_of_lt before] at found
    rcases Nat.lt_or_ge index row.length with short | long
    · rw [List.getElem?_append_left short] at found
      exact old index cell found
    · rw [List.getElem?_append_right long, List.getElem?_replicate] at found
      split at found
      · exact Option.some.inj found ▸ blank index before
      · simp at found
  · rcases Nat.lt_or_ge index (column + text.length) with inside | behind
    · have same : index = column + (index - column) := by omega
      rw [same, getElem?_put_inside (by omega)] at found
      exact same ▸ new _ cell found
    · rw [getElem?_put_behind behind] at found
      exact old index cell found

/-- The front of a row stays if the text is put behind it. -/
theorem take_put {count : Nat} (before : count ≤ column) (long : count ≤ row.length) :
    (row.put column text).take count = row.take count := by
  apply List.ext_getElem?
  intro index
  rcases Nat.lt_or_ge index count with less | more
  · have inside : index < row.length := by omega
    rw [List.getElem?_take_of_lt less, List.getElem?_take_of_lt less,
      List.getElem?_eq_getElem inside]
    exact getElem?_put_before (by omega) (List.getElem?_eq_getElem inside)
  · rw [List.getElem?_eq_none (by rw [List.length_take]; omega),
      List.getElem?_eq_none (by rw [List.length_take]; omega)]

/-- The rest of a row stays if the text is put before it. -/
theorem drop_put {count : Nat} (behind : column + text.length ≤ count) :
    (row.put column text).drop count = row.drop count := by
  apply List.ext_getElem?
  intro index
  rw [List.getElem?_drop, List.getElem?_drop, getElem?_put_behind (by omega)]

/-- A text that is put at the end of a row or behind it ends the row. -/
theorem drop_put_self (short : row.length ≤ column) : (row.put column text).drop column = text := by
  apply List.ext_getElem?
  intro index
  rw [List.getElem?_drop]
  rcases Nat.lt_or_ge index text.length with inside | behind
  · exact getElem?_put_inside inside
  · rw [getElem?_put_behind (by omega), List.getElem?_eq_none (by omega),
      List.getElem?_eq_none behind]

end ShaderSource.Row
