import Mathlib.Data.List.TakeWhile
import ShaderSource.Diagnostic.Snippet
import ShaderSource.Proofs.Token.Partition

/-!
# The line in which a span begins

A report shows no more of a source text than the lines that a span touches. The first
of these is the line in which the span begins: it holds the characters of this line up
to the next line feed, except that a carriage return in front of the line feed counts
as a part of the line end.
-/

namespace ShaderSource

-- The empty sum is the zero of the core library, also under a richer algebra.
attribute [local instance (high)] Zero.ofOfNat0

/-- A line of a text, parted at a place in it. -/
structure LineSplit where
  /-- What stands before the line. -/
  front : List Char
  /-- The characters of the line up to the place. -/
  passed : List Char
  /-- The characters of the line behind the place. -/
  ahead : List Char

namespace LineSplit

/-- The characters of the line. -/
def text (line : LineSplit) : List Char := line.passed ++ line.ahead

/-- The number of the line: one more than there are line feeds before it. -/
def number (line : LineSplit) : Nat := 1 + line.front.count '\n'

/-- A line stands in a text, from behind a line feed to the next one, and it holds a place. -/
structure Of (line : LineSplit) (source : List Char) (place : Nat) : Prop where
  parts : ∃ behind, source = line.front ++ line.text ++ behind ∧
    ∀ char ∈ behind.head?, char = '\n'
  fresh : ∀ char ∈ line.front.getLast?, char = '\n'
  noFeed : '\n' ∉ line.text
  place : place = utf8Length (line.front ++ line.passed)

end LineSplit

namespace Excerpt

variable {passed before text after : List Char} {span : Span}

/-- The excerpt from the line with a place on begins behind the last line feed before the place.
    The induction goes on in the line that was passed last. -/
theorem exists_fromLine (before rest : List Char) (number start : Nat) (noFeed : '\n' ∉ passed) :
    ∃ front line, passed ++ before = front ++ line ∧ '\n' ∉ line ∧
      (∀ char ∈ front.getLast?, char = '\n') ∧
      fromLine (start + utf8Length (passed ++ before)) (start + utf8Length passed)
          ⟨number, start, passed ++ before ++ rest⟩ (before ++ rest) =
        ⟨number + front.count '\n', start + utf8Length front, line ++ rest⟩ := by
  induction before generalizing passed number start with
  | nil =>
    refine ⟨[], passed, List.append_nil passed, noFeed, by simp, ?_⟩
    cases rest with
    | nil => simp [fromLine]
    | cons char rest => simp [fromLine]
  | cons char before inductionHypothesis =>
    have further : start + utf8Length passed < start + utf8Length (passed ++ char :: before) := by
      rw [utf8Length_append]
      exact Nat.add_lt_add_left (Nat.lt_add_of_pos_right (utf8Length_pos (List.cons_ne_nil _ _))) _
    rw [List.cons_append, fromLine, if_pos further]
    by_cases feed : char = '\n'
    case pos =>
      subst feed
      obtain ⟨front, line, parts, noFeed', ended, found⟩ :=
        inductionHypothesis (number + 1) (start + utf8Length passed + Char.utf8Size '\n')
          (List.not_mem_nil : '\n' ∉ [])
      have none : passed.count '\n' = 0 := List.count_eq_zero.mpr noFeed
      rw [List.nil_append] at parts
      refine ⟨passed ++ '\n' :: front, line, by simp [parts], noFeed', ?_, ?_⟩
      · intro char last
        cases front with
        | nil => simpa using last.symm
        | cons first others => exact ended char (by simpa using last)
      · simp only [List.nil_append, utf8Length_nil, Nat.add_zero] at found
        have place : start + (utf8Length passed + (Char.utf8Size '\n' + utf8Length before)) =
            start + utf8Length passed + Char.utf8Size '\n' + utf8Length before := by
          omega
        simp only [if_true, utf8Length_append, utf8Length_cons, List.count_append, none,
          List.count_cons_self, Nat.zero_add, place]
        rw [found, Excerpt.mk.injEq]
        refine ⟨?_, ?_, rfl⟩ <;> omega
    case neg =>
      have noFeed' : '\n' ∉ passed ++ [char] := by
        simpa [noFeed] using fun same : '\n' = char => feed same.symm
      obtain ⟨front, line, parts, noFeed'', ended, found⟩ :=
        inductionHypothesis number start noFeed'
      refine ⟨front, line, by simpa using parts, noFeed'', ended, ?_⟩
      simpa [feed, Nat.add_assoc] using found

/-- An excerpt goes on to the end of the line with its last place. -/
theorem upToLineEnd_append (chars rest : List Char) :
    upToLineEnd (utf8Length chars) (chars ++ rest) = chars ++ rest.takeWhile (· != '\n') := by
  induction chars with
  | nil =>
    induction rest with
    | nil => rfl
    | cons char rest inductionHypothesis =>
      simp only [List.nil_append, utf8Length_nil] at inductionHypothesis
      by_cases feed : char = '\n' <;> simp [upToLineEnd, feed, inductionHypothesis]
  | cons char chars inductionHypothesis =>
    have more : ¬ (utf8Length (char :: chars) = 0 ∧ char = '\n') := fun ⟨empty, _⟩ =>
      absurd empty (utf8Length_pos (List.cons_ne_nil char chars)).ne'
    rw [List.cons_append, upToLineEnd, if_neg more, utf8Length_cons, Nat.add_sub_cancel_left,
      inductionHypothesis]
    rfl

/-- The excerpt for a span begins with the line in which the span begins, and it holds the whole
    span. -/
theorem exists_ofSpan {source : String} (parts : source.toList = before ++ text ++ after)
    (start : span.start = utf8Length before) (stop : span.stop = utf8Length (before ++ text)) :
    ∃ line : LineSplit, line.Of source.toList span.start ∧ before = line.front ++ line.passed ∧
      line.ahead = (text ++ after).takeWhile (· != '\n') ∧
      ofSpan source span =
        ⟨line.number, utf8Length line.front,
          line.passed ++ (text ++ after.takeWhile (· != '\n'))⟩ := by
  obtain ⟨front, passed, same, noFeed, fresh, found⟩ :=
    exists_fromLine before (text ++ after) 1 0 (List.not_mem_nil : '\n' ∉ [])
  simp only [List.nil_append, utf8Length_nil, Nat.zero_add] at same found
  have line : LineSplit.Of ⟨front, passed, (text ++ after).takeWhile (· != '\n')⟩ source.toList
      span.start := by
    refine ⟨⟨(text ++ after).dropWhile (· != '\n'), ?_, ?_⟩, fresh, ?_, by rw [start, same]⟩
    · rw [parts, same, LineSplit.text]
      simp only [List.append_assoc, List.takeWhile_append_dropWhile]
    · intro char found
      have fails := List.head?_dropWhile_not (· != '\n') (text ++ after)
      rw [Option.mem_def.mp found] at fails
      simpa using fails
    · rw [LineSplit.text, List.mem_append, not_or]
      exact ⟨noFeed, fun member => by simpa using List.mem_takeWhile_imp member⟩
  refine ⟨_, line, same, rfl, ?_⟩
  have inside : span.stop - utf8Length front = utf8Length (passed ++ text) := by
    rw [stop, same, List.append_assoc, utf8Length_append front, Nat.add_sub_cancel_left]
  have taken := upToLineEnd_append (passed ++ text) after
  simp only [ofSpan, parts, start, List.append_assoc, found] at taken ⊢
  rw [inside, taken]
  rfl

end Excerpt

namespace SourceLine

/-- A line feed ends a line. A carriage return in front of it is no part of the line. -/
theorem exists_split_feed (number start : Nat) (current rest : List Char) :
    ∃ text endSize next,
      split number start current ('\n' :: rest) =
        ⟨number, start, text, endSize⟩ :: split (number + 1) next [] rest ∧
      (current.reverse = text ∧ endSize ≤ 1 ∨ current.reverse = text ++ ['\r'] ∧ endSize = 2) := by
  by_cases returned : ∃ before, current = '\r' :: before
  case pos =>
    obtain ⟨before, rfl⟩ := returned
    rw [split]
    exact ⟨_, _, _, rfl, .inr ⟨List.reverse_cons, rfl⟩⟩
  case neg =>
    rw [split]
    · exact ⟨_, _, _, rfl, .inl ⟨rfl, Nat.le_refl 1⟩⟩
    · exact fun before same => returned ⟨before, same⟩

/-- Any other character is one of the line. -/
theorem split_cons {char : Char} (other : char ≠ '\n') (number start : Nat)
    (current rest : List Char) :
    split number start current (char :: rest) = split number start (char :: current) rest := by
  rw [split]
  exact other

/-- The first line of a text goes up to the first line feed. A carriage return at its end is no
    part of the line if a line feed follows. -/
theorem exists_split (number start : Nat) (current : List Char) {chars : List Char}
    (filled : current ≠ [] ∨ chars ≠ []) :
    ∃ line others, split number start current chars = line :: others ∧ line.number = number ∧
      line.start = start ∧
      (current.reverse ++ chars.takeWhile (· != '\n') = line.text ∧ line.endSize ≤ 1 ∨
        current.reverse ++ chars.takeWhile (· != '\n') = line.text ++ ['\r'] ∧
          line.endSize = 2) := by
  induction chars generalizing current with
  | nil =>
    have some : current ≠ [] := filled.resolve_right (absurd rfl)
    refine ⟨⟨number, start, current.reverse, 0⟩, [], ?_, rfl, rfl, .inl ⟨by simp, by simp⟩⟩
    simp [split, some]
  | cons char rest inductionHypothesis =>
    by_cases feed : char = '\n'
    case pos =>
      subst feed
      have last : ('\n' :: rest).takeWhile (· != '\n') = [] := rfl
      obtain ⟨text, endSize, next, read, parts⟩ := exists_split_feed number start current rest
      rw [last, List.append_nil]
      exact ⟨_, _, read, rfl, rfl, parts⟩
    case neg =>
      have going : (char :: rest).takeWhile (· != '\n') = char :: rest.takeWhile (· != '\n') :=
        List.takeWhile_cons_of_pos (by simpa using feed)
      rw [split_cons feed, going, List.append_cons, ← List.reverse_cons]
      exact inductionHypothesis (char :: current) (.inl (List.cons_ne_nil _ _))

/-- A line of an excerpt is a line of the source. A carriage return at its end may be left out. -/
structure Reads (line : SourceLine) (source : LineSplit) : Prop where
  number : line.number = source.number
  start : line.start = utf8Length source.front
  text : source.text = line.text ∧ line.endSize ≤ 1 ∨
    source.text = line.text ++ ['\r'] ∧ line.endSize = 2

/-- The line feeds in the part of a text that holds its first line do not count. -/
theorem takeWhile_append_takeWhile (text after : List Char) :
    (text ++ after.takeWhile (· != '\n')).takeWhile (· != '\n') =
      (text ++ after).takeWhile (· != '\n') := by
  induction text with
  | nil => exact List.takeWhile_idem
  | cons char text inductionHypothesis =>
    by_cases feed : char = '\n' <;> simp [feed, inductionHypothesis]

/-- The excerpt for a span begins with the line in which the span begins. There has to be a
    character in the span or before it in the line. -/
theorem exists_first {source : String} {span : Span} {before text after : List Char}
    (parts : source.toList = before ++ text ++ after) (start : span.start = utf8Length before)
    (stop : span.stop = utf8Length (before ++ text))
    (visible : text ≠ [] ∨ before ≠ [] ∧ before.getLast? ≠ some '\n') :
    ∃ (split : LineSplit) (line : SourceLine) (others : List SourceLine),
      split.Of source.toList span.start ∧ line.Reads split ∧
        (Excerpt.ofSpan source span).number = split.number ∧
          split.front ++ (Excerpt.ofSpan source span).chars <+: source.toList ∧
            ofExcerpt (.ofSpan source span) = line :: others := by
  obtain ⟨split, stands, rfl, ahead, excerpt⟩ := Excerpt.exists_ofSpan parts start stop
  have filled : split.passed ++ (text ++ after.takeWhile (· != '\n')) ≠ [] := by
    rcases visible with visible | ⟨some, noFeed⟩
    · simp [visible]
    · have inLine : split.passed ≠ [] := by
        intro none
        rw [none, List.append_nil] at some noFeed
        obtain ⟨last, found⟩ := Option.ne_none_iff_exists'.mp (mt List.getLast?_eq_none_iff.mp some)
        rw [found, stands.fresh last found] at noFeed
        exact noFeed rfl
      simp [inLine]
  obtain ⟨line, others, known, number, begins, read⟩ :=
    exists_split split.number (utf8Length split.front) [] (.inr filled)
  have whole : [].reverse ++ (split.passed ++ (text ++ after.takeWhile (· != '\n'))).takeWhile
      (· != '\n') = split.text := by
    have noFeed : ∀ char ∈ split.passed, (char != '\n') = true := fun char member => by
      simpa using fun same : char = '\n' =>
        stands.noFeed (same ▸ List.mem_append_left split.ahead member)
    rw [List.reverse_nil, List.nil_append, List.takeWhile_append_of_pos noFeed,
      takeWhile_append_takeWhile, ← ahead, LineSplit.text]
  have held : split.front ++ (split.passed ++ (text ++ after.takeWhile (· != '\n'))) <+:
      source.toList := by
    refine ⟨after.dropWhile (· != '\n'), ?_⟩
    simp only [parts, List.append_assoc, List.takeWhile_append_dropWhile]
  rw [whole] at read
  exact ⟨split, line, others, stands, ⟨number, begins, read⟩, by rw [excerpt], by rwa [excerpt],
    by rw [ofExcerpt, excerpt, known]⟩

section Columns

variable {line : SourceLine} {split : LineSplit}

/-- The characters within the bytes of a front of a text are this front. -/
theorem charsWithin_append (front rest : List Char) :
    charsWithin (utf8Length front) (front ++ rest) = front := by
  induction front with
  | nil =>
    cases rest with
    | nil => rfl
    | cons char rest =>
      have more : ¬ char.utf8Size ≤ 0 := by
        have := char.utf8Size_pos
        omega
      rw [List.nil_append, utf8Length_nil, charsWithin, if_neg more]
  | cons char front inductionHypothesis =>
    rw [List.cons_append, utf8Length_cons, charsWithin, if_pos (Nat.le_add_right _ _),
      Nat.add_sub_cancel_left, inductionHypothesis]

/-- All characters are within more bytes than there are. -/
theorem charsWithin_of_le {chars : List Char} {bytes : Nat} (enough : utf8Length chars ≤ bytes) :
    charsWithin bytes chars = chars := by
  induction chars generalizing bytes with
  | nil => rfl
  | cons char chars inductionHypothesis =>
    rw [utf8Length_cons] at enough
    rw [charsWithin, if_pos (by omega), inductionHypothesis (by omega)]

/-- More bytes hold more characters. -/
theorem columnWidths_charsWithin_le (chars : List Char) {bytes more : Nat} (less : bytes ≤ more) :
    Text.columnWidths (charsWithin bytes chars) ≤ Text.columnWidths (charsWithin more chars) := by
  induction chars generalizing bytes more with
  | nil => exact Nat.le_refl _
  | cons char chars inductionHypothesis =>
    unfold charsWithin
    by_cases fits : char.utf8Size ≤ bytes
    · rw [if_pos fits, if_pos (fits.trans less)]
      have rest := inductionHypothesis (Nat.sub_le_sub_right less char.utf8Size)
      simpa [Text.columnWidths] using rest
    · rw [if_neg fits]
      exact Nat.zero_le _

/-- Columns do not decrease along a line. -/
theorem column_le (line : SourceLine) {offset further : Nat} (less : offset ≤ further) :
    line.column offset ≤ line.column further :=
  columnWidths_charsWithin_le line.text (Nat.sub_le_sub_right less line.start)

/-- The column of the place at which a line is parted is the width of what is before it. -/
theorem Reads.column_eq (reads : line.Reads split) :
    line.column (utf8Length (split.front ++ split.passed)) = Text.columnWidths split.passed := by
  have bytes : utf8Length (split.front ++ split.passed) - line.start = utf8Length split.passed := by
    rw [reads.start, utf8Length_append, Nat.add_sub_cancel_left]
  rw [column, before, bytes]
  rcases reads.text with ⟨same, _⟩ | ⟨same, _⟩
  · rw [← same, LineSplit.text, charsWithin_append]
  · rcases List.eq_nil_or_concat' split.ahead with last | ⟨ahead, final, behind⟩
    · -- The place is behind the carriage return, which takes no column.
      rw [LineSplit.text, last, List.append_nil] at same
      rw [charsWithin_of_le (by rw [same, utf8Length_append]; omega), same]
      have none : Text.columnWidth '\r' = 0 := by decide +kernel
      simp [Text.columnWidths, none]
    · rw [LineSplit.text, behind, ← List.append_assoc] at same
      obtain ⟨same, _⟩ := List.append_inj' same rfl
      rw [← same, charsWithin_append]

end Columns

end SourceLine

namespace LineMark

variable {span : Span} {line : SourceLine}

/-- A span that begins in a line lies in it, or it begins there and goes on behind it. -/
theorem ofLine?_of_begins (begins : line.start ≤ span.start)
    (within : span.start ≤ line.stop + (line.endSize - 1)) (ordered : span.start ≤ span.stop) :
    (∃ last, line.column span.start < last ∧
      ofLine? span line = some (.whole (line.column span.start) last)) ∨
    (line.reach < span.stop ∧ ofLine? span line = some (.begins (line.column span.start))) := by
  unfold ofLine?
  by_cases ends : span.stop ≤ line.reach
  · rw [if_pos ⟨begins, ends⟩]
    refine .inl ⟨_, ?_, rfl⟩
    have columns := line.column_le ordered
    split <;> omega
  · have further : line.stop < span.stop := by
      unfold SourceLine.reach at ends
      omega
    rw [if_neg fun whole => ends whole.2, if_pos ⟨begins, within, further⟩]
    exact .inr ⟨by omega, rfl⟩

end LineMark

namespace MarkedLine

/-- The first line of an excerpt is marked by the span alone. -/
theorem exists_ofLines_cons {span : Span} {line : SourceLine} {mark : LineMark}
    (found : LineMark.ofLine? span line = some mark) (others : List SourceLine) :
    ∃ later, ofLines span (line :: others) = ⟨line, some mark⟩ :: later := by
  rw [ofLines, found]
  exact ⟨_, rfl⟩

/-- The lines stay as they are. -/
theorem map_line_ofLines (span : Span) (lines : List SourceLine) :
    (ofLines span lines).map MarkedLine.line = lines := by
  induction lines with
  | nil => rfl
  | cons line lines inductionHypothesis =>
    rw [ofLines, List.map_cons]
    split
    · rw [List.map_map]
      exact congrArg _ (List.map_id lines)
    · rw [inductionHypothesis]

end MarkedLine

/-- The lines from the first one with carets on are shown. -/
theorem ShownLine.exists_ofMarked_cons {marked : MarkedLine} (carets : marked.hasCarets = true)
    (others : List MarkedLine) :
    ∃ later, ShownLine.ofMarked (marked :: others) = .source marked :: later := by
  have kept : (marked :: others).dropWhile (fun marked => !marked.hasCarets) = marked :: others :=
    List.dropWhile_cons_of_neg (by simp [carets])
  rw [ShownLine.ofMarked, kept, ShownLine.following, if_pos carets]
  exact ⟨_, rfl⟩

end ShaderSource
