import ShaderSource.Proofs.Diagnostic.Picture

/-!
# The rows of a line

The row of a line begins with its number, and nothing is ever put over this. Behind
the bar are the cells of the line. Dots are put over them where the line is cut off, and
the bracket stands left of them. The row of the carets begins as a row with nothing but
the bar.
-/

namespace ShaderSource

-- The empty sum is the zero of the core library, also under a richer algebra.
attribute [local instance (high)] Zero.ofOfNat0

namespace Layout

variable (layout : Layout) (marked : MarkedLine)

/-- The cells of a line. -/
def cells : List Char := shownText marked.line.text

/-- How many cells of a line are cut off at the left. -/
def left : Nat := layout.window.skipped (utf8Length (cells marked))

/-- The cells of a line that are shown. -/
def code : List Char :=
  fitting (layout.window.shownTo (utf8Length (cells marked)) - layout.left marked)
    ((cells marked).drop (layout.left marked))

/-- The dots at an end of a line that is cut off there. -/
def dots (isCut : Bool) : List Char := if isCut then ['.', '.', '.'] else []

/-- The column of the dots at the right end of a line. -/
def dotsColumn : Nat := layout.codeColumn + ((layout.code marked).map shownWidth).sum - 3

/-- Dots are put where a line is cut, and nothing elsewhere. -/
theorem put_dots (row : Row) (column : Nat) (isCut : Bool) :
    row.put column (dots isCut) = if isCut then row.put column ['.', '.', '.'] else row := by
  cases isCut <;> rfl

/-- The row of a line as what is put into it. -/
theorem codeRow_eq :
    (layout.codeRow marked).1 =
      ((((layout.numberRow marked.line.number).put layout.codeColumn (layout.code marked)).put
        layout.codeColumn (dots (0 < layout.window.left))).put (layout.dotsColumn marked)
          (dots (layout.window.cutsEnd (utf8Length (cells marked))))).put layout.bracketColumn
            (bracket (cells marked) marked.mark) := by
  simp only [put_dots, decide_eq_true_eq]
  rfl

/-- Source text stands behind the number, the bar and the blanks around it. -/
theorem add_three_le_codeColumn : layout.numberWidth + 3 ≤ layout.codeColumn :=
  Nat.le_add_right _ _

/-- The number of a line at the right end of its columns. -/
def numberCells (number : Nat) : List Char :=
  List.replicate (layout.numberWidth - (Nat.toDigits 10 number).length) ' ' ++
    Nat.toDigits 10 number

/-- The row of a number is its cells and the bar. -/
theorem numberRow_eq (number : Nat) :
    layout.numberRow number = layout.numberCells number ++ [' ', '|'] := by
  rw [numberRow, numberCells, Nat.toString_eq_repr, Nat.toList_repr]

section Code

variable (room : (Nat.toDigits 10 marked.line.number).length ≤ layout.numberWidth)

include room

/-- The number of a shown line fits into its columns. -/
theorem length_numberCells :
    (layout.numberCells marked.line.number).length = layout.numberWidth := by
  rw [numberCells, List.length_append, List.length_replicate]
  omega

/-- The bar stands one blank behind the number. -/
theorem length_numberRow :
    (layout.numberRow marked.line.number).length = layout.numberWidth + 2 := by
  rw [numberRow_eq, List.length_append, length_numberCells layout marked room]
  rfl

/-- Nothing is put over the number of a line. -/
theorem number_begins_codeRow :
    layout.numberCells marked.line.number <+: (layout.codeRow marked).1 := by
  have columns := layout.add_three_le_codeColumn
  have length := length_numberCells layout marked room
  have dotted : layout.numberWidth ≤ layout.dotsColumn marked := by
    unfold dotsColumn
    omega
  have start : layout.numberCells marked.line.number <+: layout.numberRow marked.line.number :=
    ⟨[' ', '|'], (numberRow_eq layout _).symm⟩
  rw [codeRow_eq]
  refine Row.begins_put (Row.begins_put (Row.begins_put (Row.begins_put start ?_) ?_) ?_) ?_
  · omega
  · omega
  · omega
  · rw [length, bracketColumn]
    omega

variable (clear : layout.bracketColumn + (bracket (cells marked) marked.mark).length ≤
  layout.codeColumn)

include clear

/-- Behind the numbers stand cells of the line, dots and blanks. -/
theorem codeRow_cell (index : Nat) (cell : Char)
    (held : (layout.codeRow marked).1[layout.codeColumn + index]? = some cell) :
    (cells marked)[layout.left marked + index]? = some cell ∨ cell = '.' ∨ cell = ' ' := by
  let holds (place : Nat) (cell : Char) : Prop := layout.codeColumn ≤ place →
    (cells marked)[layout.left marked + (place - layout.codeColumn)]? = some cell ∨
      cell = '.' ∨ cell = ' '
  have blank (place : Nat) : holds place ' ' := fun _ => .inr (.inr rfl)
  have dotted (isCut : Bool) (column : Nat) :
      ∀ place cell, (dots isCut)[place]? = some cell → holds (column + place) cell := by
    intro place cell found _
    have member : cell ∈ dots isCut := List.mem_of_getElem? found
    refine .inr (.inl ?_)
    unfold dots at member
    split at member <;> simp_all
  have number : ∀ place cell, (layout.numberRow marked.line.number)[place]? = some cell →
      holds place cell := by
    intro place cell found behind
    have columns := layout.add_three_le_codeColumn
    obtain ⟨inside, _⟩ := List.getElem?_eq_some_iff.mp found
    rw [length_numberRow layout marked room] at inside
    omega
  have code : ∀ place cell, (layout.code marked)[place]? = some cell →
      holds (layout.codeColumn + place) cell := by
    intro place cell found _
    refine .inl ?_
    rw [Nat.add_sub_cancel_left, ← List.getElem?_drop]
    obtain ⟨inside, same⟩ := List.getElem?_eq_some_iff.mp found
    obtain ⟨rest, parts⟩ := fitting_begins
      (layout.window.shownTo (utf8Length (cells marked)) - layout.left marked)
      ((cells marked).drop (layout.left marked))
    rw [← parts]
    exact (List.getElem?_append_left inside).trans found
  have bracketed : ∀ place cell, (bracket (cells marked) marked.mark)[place]? = some cell →
      holds (layout.bracketColumn + place) cell := by
    intro place cell found behind
    obtain ⟨inside, _⟩ := List.getElem?_eq_some_iff.mp found
    omega
  rw [codeRow_eq] at held
  have all := Row.forall_put (Row.forall_put (Row.forall_put (Row.forall_put number code
    fun place _ => blank place) (dotted _ _) fun place _ => blank place) (dotted _ _)
      fun place _ => blank place) bracketed (fun place _ => blank place) _ _ held
        (Nat.le_add_right _ _)
  rwa [Nat.add_sub_cancel_left] at all

/-- A line that has room in the window is not cut off. -/
theorem codeRow_whole (unmoved : layout.window.left = 0)
    (fits : utf8Length (cells marked) ≤ layout.window.width) :
    layout.left marked = 0 ∧ (layout.codeRow marked).1[layout.numberWidth + 1]? = some '|' ∧
      (layout.codeRow marked).1.drop layout.codeColumn = cells marked := by
  have columns := layout.add_three_le_codeColumn
  have length := length_numberRow layout marked room
  have first : layout.left marked = 0 := by
    rw [left, Window.skipped, unmoved, Nat.zero_min]
  have code : layout.code marked = cells marked := by
    have shown : layout.window.shownTo (utf8Length (cells marked)) = utf8Length (cells marked) :=
      if_pos (by omega)
    rw [Layout.code, first, shown, List.drop_zero]
    exact fitting_of_le (Nat.le_refl _)
  have uncut : layout.window.cutsEnd (utf8Length (cells marked)) = false := by
    rw [Window.cutsEnd, Bool.and_eq_false_iff, decide_eq_false_iff_not, decide_eq_false_iff_not]
    omega
  have row : (layout.codeRow marked).1 =
      ((layout.numberRow marked.line.number).put layout.codeColumn (cells marked)).put
        layout.bracketColumn (bracket (cells marked) marked.mark) := by
    rw [codeRow_eq, uncut, unmoved, code]
    rfl
  refine ⟨first, ?_, ?_⟩
  · have bar : (layout.numberRow marked.line.number)[layout.numberWidth + 1]? = some '|' := by
      rw [numberRow_eq, List.getElem?_append_right (by
        rw [length_numberCells layout marked room]; omega), length_numberCells layout marked room,
        Nat.add_sub_cancel_left]
      rfl
    rw [row]
    refine Row.getElem?_put_before ?_ (Row.getElem?_put_before ?_ bar)
    · rw [bracketColumn]
      omega
    · omega
  · rw [row, Row.drop_put clear, Row.drop_put_self (by omega)]

end Code

/-- The bracket begins beside a line from whose first sign a span goes on behind it. -/
theorem codeRow_bracket {column : Nat} (begins : marked.mark = some (.begins column))
    (first : beginsLine (cells marked) column = true) :
    (layout.codeRow marked).1[layout.numberWidth + 3]? = some '/' := by
  have sign : bracket (cells marked) marked.mark = ['/'] := by
    rw [begins, bracket, if_pos first]
  rw [codeRow_eq, sign]
  exact Row.getElem?_put_cons _ _ _ _

section Carets

variable (cut : Nat)

/-- The column of a caret. -/
def cell (column : Nat) : Nat := layout.codeColumn + column - cut

/-- A caret stands in the column in which a span begins that lies in the line. -/
theorem caretRow?_whole {first last : Nat} (ordered : first < last) {line : SourceLine} :
    ∃ row, layout.caretRow? ⟨line, some (.whole first last)⟩ cut = some row ∧
      row[layout.cell cut first]? = some '^' := by
  have columns := layout.add_three_le_codeColumn
  refine ⟨_, rfl, ?_⟩
  have carets : layout.codeColumn + (last - 1) - cut + 1 - (layout.codeColumn + first - cut) =
      (layout.codeColumn + (last - 1) - cut - (layout.codeColumn + first - cut)) + 1 := by
    omega
  rw [if_pos ordered, carets, List.replicate_succ]
  refine Row.getElem?_put_before ?_ (Row.getElem?_put_cons _ _ _ _)
  unfold cell
  omega

/-- A caret stands in the column in which a span begins that goes on behind the line. -/
theorem caretRow?_begins {column : Nat} {line : SourceLine}
    (behind : beginsLine (shownText line.text) column = false) :
    ∃ row, layout.caretRow? ⟨line, some (.begins column)⟩ cut = some row ∧
      row[layout.cell cut column]? = some '^' := by
  exact ⟨_, if_neg (Bool.eq_false_iff.mp behind), Row.getElem?_put_cons _ _ _ _⟩

end Carets

section Notes

/-- A row with nothing but the bar is no note. -/
theorem barRow_eq : layout.barRow = List.replicate (layout.numberWidth + 1) ' ' ++ ['|'] := by
  rw [barRow, Row.put_eq (List.cons_ne_nil _ _)]
  simp

/-- A row without a number has its bar. -/
theorem opens_barRow : Row.Opens layout.numberWidth layout.barRow := by
  refine ⟨layout.numberWidth + 1, '|', Nat.le_refl _, ?_, by decide, ?_⟩
  · rw [barRow_eq, List.getElem?_append_right (by simp)]
    simp
  · intro place other _ held
    have member := List.mem_of_getElem? held
    rw [barRow_eq, List.mem_append, List.mem_singleton] at member
    rcases member with blank | rfl
    · rw [List.eq_of_mem_replicate blank]
      decide
    · decide

/-- The row of a number opens with it or with its bar. -/
theorem opens_numberRow (number : Nat) :
    Row.Opens layout.numberWidth (layout.numberRow number) := by
  obtain ⟨digit, digits, written⟩ :=
    List.exists_cons_of_ne_nil (Nat.toDigits_ne_nil (b := 10) (n := number))
  have isDigit : digit.isDigit = true :=
    Nat.isDigit_of_mem_toDigits (by decide) (by decide) (written ▸ List.mem_cons_self)
  have row : layout.numberRow number =
      List.replicate (layout.numberWidth - (digit :: digits).length) ' ' ++
        digit :: (digits ++ [' ', '|']) := by
    rw [numberRow_eq, numberCells, written, List.append_assoc, List.cons_append]
  have found : (layout.numberRow number)[layout.numberWidth - (digit :: digits).length]? =
      some digit := by
    rw [row, List.getElem?_append_right (by simp)]
    simp
  refine ⟨layout.numberWidth - (digit :: digits).length, digit, by omega, found, ?_, ?_⟩
  · rintro rfl
    exact absurd isDigit (by decide)
  · intro place other less held
    rcases Nat.lt_or_eq_of_le less with front | rfl
    · rw [row, List.getElem?_append_left (by simpa using front), List.getElem?_replicate,
        if_pos front] at held
      rw [← Option.some.inj held]
      decide
    · rw [held] at found
      rintro rfl
      rw [← Option.some.inj found] at isDigit
      exact absurd isDigit (by decide)

/-- Dots are no sign of a note. -/
theorem noSign_dots (isCut : Bool) : ∀ cell ∈ dots isCut, cell ≠ ' ' ∧ cell ≠ '=' := by
  cases isCut <;> simp [dots]

/-- The row of a line opens with its number, whatever is put behind. -/
theorem opens_codeRow : Row.Opens layout.numberWidth (layout.codeRow marked).1 := by
  have columns := layout.add_three_le_codeColumn
  rw [codeRow_eq]
  refine Row.Opens.put (Row.Opens.put (Row.Opens.put (Row.Opens.put
    (layout.opens_numberRow marked.line.number) ?_) fun _ => noSign_dots _)
      fun _ => noSign_dots _) ?_
  · omega
  · rw [bracketColumn]
    omega

/-- The row of the carets opens with its bar. -/
theorem opens_caretRow {cut : Nat} {row : Row} (found : layout.caretRow? marked cut = some row) :
    Row.Opens layout.numberWidth row := by
  have columns := layout.add_three_le_codeColumn
  have sign (count : Nat) (char : Char) (noBlank : char ≠ ' ') (noSign : char ≠ '=') :
      ∀ cell ∈ List.replicate count char, cell ≠ ' ' ∧ cell ≠ '=' := fun cell member =>
    List.eq_of_mem_replicate member ▸ ⟨noBlank, noSign⟩
  have caret : ∀ cell ∈ ['^'], cell ≠ ' ' ∧ cell ≠ '=' := by simp
  have bar : ∀ cell ∈ ['|'], cell ≠ ' ' ∧ cell ≠ '=' := by simp
  have carets (count : Nat) := sign count '^' (by decide) (by decide)
  have line (count : Nat) := sign count '_' (by decide) (by decide)
  unfold caretRow? at found
  dsimp only at found
  split at found
  case h_1 first last _ =>
    rw [← Option.some.inj found]
    refine (layout.opens_barRow.put ?_).put (by omega)
    intro _
    split
    · exact carets _
    · simp
  case h_2 column _ =>
    split at found
    · simp at found
    · rw [← Option.some.inj found]
      exact (layout.opens_barRow.put fun _ => line _).put fun _ => caret
  case h_3 column _ =>
    rw [← Option.some.inj found]
    exact (((layout.opens_barRow.put fun _ => bar).put fun _ => line _).put fun _ => caret).put
      (by omega)
  case h_4 => simp at found

/-- No row of a shown line is a note. -/
theorem opens_rows (shown : ShownLine) :
    ∀ row ∈ layout.rows shown, Row.Opens layout.numberWidth row := by
  have fold : Row.Opens layout.numberWidth ['.', '.', '.'] := by
    refine ⟨0, '.', Nat.zero_le _, rfl, by decide, fun place other first held => ?_⟩
    rw [Nat.le_zero.mp first] at held
    rw [← Option.some.inj held]
    decide
  have bar : ∀ cell ∈ ['|'], cell ≠ ' ' ∧ cell ≠ '=' := by simp
  intro row member
  unfold rows at member
  split at member
  case h_1 marked =>
    dsimp only at member
    cases carets : layout.caretRow? marked (layout.codeRow marked).2 with
    | none =>
      rw [carets] at member
      exact List.mem_singleton.mp member ▸ layout.opens_codeRow marked
    | some below =>
      rw [carets] at member
      rcases List.mem_pair.mp member with rfl | rfl
      · exact layout.opens_codeRow marked
      · exact layout.opens_caretRow marked carets
  case h_2 mark =>
    dsimp only at member
    split at member
    · exact List.mem_singleton.mp member ▸ fold.put fun _ => bar
    · exact List.mem_singleton.mp member ▸ fold

end Notes

end Layout

end ShaderSource
