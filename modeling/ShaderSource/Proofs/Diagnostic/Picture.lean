import Mathlib.Data.List.Infix
import ShaderSource.Proofs.Diagnostic.Row
import ShaderSource.Proofs.Diagnostic.Window

/-!
# What a report shows of a source text

The rows of a report stand between two bars. The first of them is the one of the line
in which the span begins: the number of the line stands at the right of the columns for
line numbers, and behind them the characters of the line, from the first to the last
one if the line has room. A caret in the next row stands in the column in which the span
begins: under the first character of the span, if all signs of the line take one column.
A span that begins with the first sign of a line and goes on behind it has no
carets there; it has a bracket at the left, and this begins beside the line.

No row of a snippet can be taken for a note: before any equals sign stands something
else that is no blank.
-/

namespace ShaderSource

-- The empty sum is the zero of the core library, also under a richer algebra.
attribute [local instance (high)] Zero.ofOfNat0

/-- The characters that join others or turn the direction of the text around them. They are not
    shown. -/
def IsDirectionMark (char : Char) : Prop :=
  char.toNat = 0x200D ∨ (0x202A ≤ char.toNat ∧ char.toNat ≤ 0x202E) ∨
    (0x2066 ≤ char.toNat ∧ char.toNat ≤ 0x2069)

/-- How the characters of a line are shown, one cell for each character of the row. -/
inductive Displays : List Char → List Char → Prop
  | done : Displays [] []
  | tab {chars cells : List Char} (rest : Displays chars cells) :
    Displays ('\t' :: chars) (' ' :: ' ' :: ' ' :: ' ' :: cells)
  | hidden {char : Char} {chars cells : List Char} (mark : IsDirectionMark char)
    (rest : Displays chars cells) : Displays (char :: chars) cells
  | shown {char : Char} {chars cells : List Char} (noTab : char ≠ '\t')
    (noMark : ¬ IsDirectionMark char) (rest : Displays chars cells) :
    Displays (char :: chars) (char :: cells)

/-- The control characters that are not shown are the marks of direction. -/
theorem isHiddenControl_iff (char : Char) : isHiddenControl char = true ↔ IsDirectionMark char := by
  have same (other : Char) : char = other ↔ char.toNat = other.toNat := Char.toNat_inj.symm
  simp only [isHiddenControl, IsDirectionMark, List.contains_iff_mem, List.mem_cons,
    List.not_mem_nil, or_false, same, Char.reduceToNat]
  omega

/-- A line is shown by its cells. -/
theorem displays_shownText (chars : List Char) : Displays chars (shownText chars) := by
  induction chars with
  | nil => exact .done
  | cons char chars inductionHypothesis =>
    rw [shownText_cons]
    by_cases tab : char = '\t'
    · rw [if_pos tab, tab]
      exact .tab inductionHypothesis
    · rw [if_neg tab]
      by_cases mark : isHiddenControl char = true
      · rw [if_pos mark]
        exact .hidden ((isHiddenControl_iff char).mp mark) inductionHypothesis
      · rw [if_neg mark]
        exact .shown tab (mt (isHiddenControl_iff char).mpr mark) inductionHypothesis

/-- A note: a row in which the word stands behind an equals sign. -/
def IsNote (row : List Char) : Prop :=
  ∃ blanks rest, row = List.replicate blanks ' ' ++ "= note: ".toList ++ rest

/-- What a report shows of the line in which a span begins. -/
structure Picture where
  line : LineSplit
  /-- How many columns there are for line numbers. -/
  width : Nat
  /-- How many columns there are between the line numbers and the source text. -/
  gap : Nat
  /-- The row of the line. -/
  row : List Char
  /-- The rows that follow it. -/
  others : List (List Char)
  /-- The cells of the line. -/
  cells : List Char
  /-- How many cells are cut off at the left. -/
  left : Nat

namespace Picture

/-- A row with nothing but the bar beside the line numbers. -/
def bar (picture : Picture) : List Char := List.replicate (picture.width + 1) ' ' ++ ['|']

/-- The rows between the two bars. -/
def rows (picture : Picture) : List (List Char) :=
  picture.bar :: picture.row :: picture.others ++ [picture.bar]

/-- The first column of source text. -/
def codeColumn (picture : Picture) : Nat := picture.width + picture.gap

/-- The column of the place at which the line is parted. -/
def markColumn (picture : Picture) : Nat :=
  picture.codeColumn + Text.columnWidths picture.line.passed -
    ((picture.cells.take picture.left).map shownWidth).sum

/-- A picture shows the line of a source text in which a span begins, and marks the beginning. -/
structure Shows (picture : Picture) (source : List Char) (span : Span) : Prop where
  line : picture.line.Of source span.start
  gap : picture.gap = 3 ∨ picture.gap = 5
  /-- The number of the line stands at the right end of its columns. -/
  number : ∃ blanks, blanks + (Nat.toDigits 10 picture.line.number).length = picture.width ∧
    List.replicate blanks ' ' ++ Nat.toDigits 10 picture.line.number <+: picture.row
  cells : ∃ text, (picture.line.text = text ∨ picture.line.text = text ++ ['\r']) ∧
    Displays text picture.cells
  /-- Behind the numbers stands the line, or dots where it is cut off. -/
  code : ∀ index cell, picture.row[picture.codeColumn + index]? = some cell →
    picture.cells[picture.left + index]? = some cell ∨ cell = '.' ∨ cell = ' '
  /-- A line that has room is not cut off. -/
  whole : ShortLines source → picture.line.BeginsEarly →
    picture.left = 0 ∧ picture.row[picture.width + 1]? = some '|' ∧
      picture.row.drop picture.codeColumn = picture.cells
  /-- The beginning is marked in the next row, or at the left if there are only blanks before it
      and the span goes on behind the line. -/
  mark : (∃ carets later, picture.others = carets :: later ∧
      carets[picture.markColumn]? = some '^') ∨
    (picture.row[picture.width + 3]? = some '/' ∧
      (∀ cell ∈ picture.cells.take (Text.columnWidths picture.line.passed),
        Text.isBlank cell = true) ∧
      utf8Length (picture.line.front ++ picture.line.text) < span.stop)
  noNote : ∀ row ∈ picture.rows, ¬ IsNote row

end Picture

section Plain

/-- The blank and the signs of ASCII that are seen. -/
def IsPlainSign (char : Char) : Prop := 32 ≤ char.toNat ∧ char.toNat ≤ 126

/-- Such a sign is in none of some ranges that end before these signs or begin behind them. -/
theorem IsPlainSign.inRanges {char : Char} (plain : IsPlainSign char) {ranges : List (Nat × Nat)}
    (apart : ∀ range ∈ ranges, range.2 < 32 ∨ 126 < range.1) :
    Text.inRanges ranges char = false := by
  obtain ⟨least, greatest⟩ := plain
  refine List.any_eq_false.mpr fun range listed => ?_
  have := apart range listed
  simp only [Bool.and_eq_true, decide_eq_true_eq]
  omega

/-- Such a sign takes one column. -/
theorem IsPlainSign.columnWidth {char : Char} (plain : IsPlainSign char) :
    Text.columnWidth char = 1 := by
  have other : char ≠ Text.andSoOnSign := by
    rintro rfl
    exact absurd plain.2 (by decide)
  rw [Text.columnWidth, plain.inRanges (by decide +kernel : ∀ range ∈ Text.zeroWidthRanges, _),
    plain.inRanges (by decide +kernel : ∀ range ∈ Text.wideRanges, _), if_neg Bool.false_ne_true,
    if_neg Bool.false_ne_true, if_neg other]

/-- Plain signs take as many columns as there are of them. -/
theorem columnWidths_of_plain {chars : List Char} (plain : ∀ char ∈ chars, IsPlainSign char) :
    Text.columnWidths chars = chars.length := by
  rw [Text.columnWidths, List.map_congr_left fun char member => (plain char member).columnWidth]
  simp

/-- Plain signs are shown as they are. -/
theorem Displays.eq_of_plain {chars cells : List Char} (displays : Displays chars cells)
    (plain : ∀ char ∈ chars, IsPlainSign char) : cells = chars := by
  induction displays with
  | done => rfl
  | tab => exact absurd (plain '\t' List.mem_cons_self).1 (by decide)
  | hidden mark =>
    have sign := plain _ List.mem_cons_self
    simp only [IsDirectionMark, IsPlainSign] at mark sign
    omega
  | shown _ _ _ inductionHypothesis =>
    rw [inductionHypothesis fun char member => plain char (List.mem_cons_of_mem _ member)]

/-- In a line of plain signs that has room, the caret stands under the first character of the
    span. -/
theorem Picture.Shows.getElem?_markColumn {picture : Picture} {source : List Char} {span : Span}
    (shows : picture.Shows source span) (short : ShortLines source)
    (early : picture.line.BeginsEarly) (plain : ∀ char ∈ picture.line.text, IsPlainSign char) :
    picture.row[picture.markColumn]? = picture.line.ahead.head? := by
  obtain ⟨unmoved, _, code⟩ := shows.whole short early
  have cells : picture.cells = picture.line.text := by
    obtain ⟨text, same | cut, displays⟩ := shows.cells
    · exact same ▸ displays.eq_of_plain (same ▸ plain)
    · exact absurd (plain '\r' (by simp [cut])).1 (by decide)
  have widths : Text.columnWidths picture.line.passed = picture.line.passed.length :=
    columnWidths_of_plain fun char member => plain char (List.mem_append_left _ member)
  rw [Picture.markColumn, unmoved, widths, List.take_zero, List.map_nil, List.sum_nil,
    Nat.sub_zero, ← List.getElem?_drop, code, cells, LineSplit.text,
    List.getElem?_append_right (Nat.le_refl _), Nat.sub_self, List.head?_eq_getElem?]

end Plain

namespace Row

variable {row : Row} {column width : Nat} {text front : List Char}

/-- What a row begins with stays if the text is put behind it. -/
theorem begins_put (begins : front <+: row) (before : front.length ≤ column) :
    front <+: row.put column text := by
  rw [List.prefix_iff_eq_take] at begins ⊢
  have long : front.length ≤ row.length := by
    have length := congrArg List.length begins
    rw [List.length_take] at length
    omega
  rw [take_put before long]
  exact begins

/-- Among the first columns of a row, up to the one of the bar, stands something that is no blank,
    and no equals sign stands before it. -/
def Opens (width : Nat) (row : Row) : Prop :=
  ∃ index cell, index ≤ width + 1 ∧ row[index]? = some cell ∧ cell ≠ ' ' ∧
    ∀ before other, before ≤ index → row[before]? = some other → other ≠ '='

/-- Such a row is no note. -/
theorem Opens.not_isNote (opens : Opens width row) : ¬ IsNote row := by
  rintro ⟨blanks, rest, rfl⟩
  obtain ⟨index, cell, _, found, noBlank, noSign⟩ := opens
  rw [List.append_assoc] at found noSign
  rcases Nat.lt_or_ge index blanks with before | behind
  · rw [List.getElem?_append_left (by simpa using before), List.getElem?_replicate,
      if_pos before] at found
    exact noBlank (Option.some.inj found).symm
  · refine noSign blanks '=' behind ?_ rfl
    rw [List.getElem?_append_right (by simp), List.length_replicate, Nat.sub_self]
    rfl

/-- A row opens so whatever is put behind the bar, and if signs are put before it. -/
theorem Opens.put (opens : Opens width row)
    (signs : column ≤ width + 1 → ∀ cell ∈ text, cell ≠ ' ' ∧ cell ≠ '=') :
    Opens width (row.put column text) := by
  obtain ⟨index, cell, near, found, noBlank, noSign⟩ := opens
  obtain ⟨inside, _⟩ := List.getElem?_eq_some_iff.mp found
  have kept : ∀ before other, before < column → before ≤ index →
      (row.put column text)[before]? = some other → row[before]? = some other := by
    intro before other front less held
    have within : before < row.length := by omega
    rwa [getElem?_put_before front (List.getElem?_eq_getElem within),
      ← List.getElem?_eq_getElem within] at held
  cases text with
  | nil => exact ⟨index, cell, near, found, noBlank, noSign⟩
  | cons first rest =>
    rcases Nat.lt_or_ge index column with before | behind
    · exact ⟨index, cell, near, getElem?_put_before before found, noBlank,
        fun other char less held => noSign other char less (kept other char (by omega) less held)⟩
    · -- The text begins before the sign that was the first one.
      obtain ⟨noBlank', noSign'⟩ := signs (by omega) first List.mem_cons_self
      have new := getElem?_put_cons row column first rest
      refine ⟨column, first, by omega, new, noBlank', fun other char less held => ?_⟩
      rcases Nat.lt_or_eq_of_le less with front | rfl
      · exact noSign other char (by omega) (kept other char front (by omega) held)
      · rw [held] at new
        exact Option.some.inj new ▸ noSign'

end Row

end ShaderSource
