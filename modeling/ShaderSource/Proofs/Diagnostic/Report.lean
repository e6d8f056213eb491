import ShaderSource.Processor
import ShaderSource.Proofs.Diagnostic.Layout
import ShaderSource.Proofs.Location

/-!
# Reports of failures to read a source

The report of such a failure shows a piece of the source: first of all the line in
which the span of the failure begins, under its own number and with a mark at the
beginning. No note stands in place of the piece. A processor reports a failure with
the text that it read, in which the placeholders were exchanged already.
-/

namespace ShaderSource

-- The empty sum is the zero of the core library, also under a richer algebra.
attribute [local instance (high)] Zero.ofOfNat0

/-- The place at which a line is parted is not behind the line. -/
theorem SourceLine.Reads.within {line : SourceLine} {split : LineSplit} (reads : line.Reads split) :
    utf8Length (split.front ++ split.passed) ≤ line.stop + (line.endSize - 1) := by
  have passed : utf8Length split.text = utf8Length split.passed + utf8Length split.ahead := by
    rw [LineSplit.text, utf8Length_append]
  rw [SourceLine.stop, reads.start, utf8Length_append]
  rcases reads.text with ⟨same, _⟩ | ⟨same, two⟩
  · rw [same] at passed
    omega
  · have size : Char.utf8Size '\r' = 1 := rfl
    rw [same, utf8Length_append, utf8Length_cons, utf8Length_nil, size] at passed
    omega

/-- A span that goes on behind what counts as a part of a line goes on behind the line. -/
theorem SourceLine.Reads.beyond {line : SourceLine} {split : LineSplit} (reads : line.Reads split)
    {place : Nat} (further : line.reach < place) :
    utf8Length (split.front ++ split.text) < place := by
  rw [SourceLine.reach, SourceLine.stop, reads.start] at further
  rw [utf8Length_append]
  rcases reads.text with ⟨same, _⟩ | ⟨same, _⟩
  · rw [same]
    omega
  · have size : Char.utf8Size '\r' = 1 := rfl
    rw [same, utf8Length_append, utf8Length_cons, utf8Length_nil, size]
    omega

namespace Snippet

variable (snippet : Snippet) (label : String)

/-- The outlines of the rows of a snippet. -/
def layout : Layout where
  numberWidth := snippet.numberWidth
  bracketed := snippet.marked.any fun marked => marked.mark.any fun
    | .whole .. => false
    | _ => true
  window := .ofLines snippet.marked label.utf8ByteSize snippet.following
  label := label.toList

/-- The rows of a snippet without the name of a file. -/
theorem rows_none :
    snippet.rows none label = (snippet.layout label).barRow ::
      snippet.shown.flatMap (snippet.layout label).rows ++ [(snippet.layout label).barRow] := rfl

/-- The columns for line numbers have room for the number of each shown line. -/
theorem length_toDigits_le_numberWidth {marked : MarkedLine}
    (shown : .source marked ∈ snippet.shown) :
    (Nat.toDigits 10 marked.line.number).length ≤ snippet.numberWidth := by
  have listed : marked.line.number ∈ snippet.shown.map ShownLine.number :=
    List.mem_map.mpr ⟨_, shown, rfl⟩
  unfold numberWidth
  cases greatest : (snippet.shown.map ShownLine.number).max? with
  | none => simp [List.max?_eq_none_iff.mp greatest] at listed
  | some number =>
    have less : marked.line.number ≤ number := by
      have most := List.le_max?_getD_of_mem (k := 0) listed
      rwa [greatest, Option.getD_some] at most
    have positive : 0 < (Nat.toDigits 10 number).length :=
      List.length_pos_iff.mpr Nat.toDigits_ne_nil
    have width : (toString number).length = (Nat.toDigits 10 number).length := by
      rw [← String.length_toList, Nat.toString_eq_repr, Nat.toList_repr]
    have digits (value : Nat) := Nat.length_toDigits_le_iff (b := 10) (n := value) (by decide)
      positive
    dsimp only
    rw [width, digits]
    exact less.trans_lt ((digits number).mp (Nat.le_refl _))

end Snippet

/-- The row of a line is followed by its carets, if it has any. -/
theorem Layout.rows_source (layout : Layout) (marked : MarkedLine) :
    layout.rows (.source marked) =
      (layout.codeRow marked).1 ::
        (layout.caretRow? marked (layout.codeRow marked).2).toList := by
  rw [rows]
  dsimp only
  cases layout.caretRow? marked (layout.codeRow marked).2 <;> rfl

namespace Layout

variable (layout : Layout) (split : LineSplit) (marked : MarkedLine) (followed : List ShownLine)

/-- The picture of a line with the rows that follow it. -/
def picture : Picture where
  line := split
  width := layout.numberWidth
  gap := 3 + if layout.bracketed then 2 else 0
  row := (layout.codeRow marked).1
  others := (layout.caretRow? marked (layout.codeRow marked).2).toList ++
    followed.flatMap layout.rows
  cells := cells marked
  left := layout.left marked

/-- The source text of the picture stands where the layout has it. -/
theorem codeColumn_picture :
    (layout.picture split marked followed).codeColumn = layout.codeColumn :=
  (Nat.add_assoc _ _ _).symm

/-- The mark of the picture stands where the layout puts the caret. -/
theorem markColumn_picture :
    (layout.picture split marked followed).markColumn =
      layout.cell (layout.codeRow marked).2 (Text.columnWidths split.passed) := by
  rw [Picture.markColumn, codeColumn_picture]
  rfl

/-- The rows of the picture are those of the lines between two bars. -/
theorem rows_picture :
    (layout.picture split marked followed).rows =
      layout.barRow :: (ShownLine.source marked :: followed).flatMap layout.rows ++
        [layout.barRow] := by
  rw [List.flatMap_cons, rows_source, Picture.rows, Picture.bar, barRow_eq]
  rfl

variable {layout split marked} {source : List Char} {span : Span}

/-- The mark of a line in which a span begins: the span lies in the line, or it begins there and
    goes on behind it. -/
def Marks (layout : Layout) (split : LineSplit) (span : Span) (mark : Option LineMark) : Prop :=
  (∃ last, Text.columnWidths split.passed < last ∧
    mark = some (.whole (Text.columnWidths split.passed) last)) ∨
  (layout.bracketed = true ∧ utf8Length (split.front ++ split.text) < span.stop ∧
    mark = some (.begins (Text.columnWidths split.passed)))

/-- The bracket beside such a line stands before its text. -/
theorem Marks.clear (marks : layout.Marks split span marked.mark) :
    layout.bracketColumn + (bracket (cells marked) marked.mark).length ≤ layout.codeColumn := by
  rcases marks with ⟨last, _, same⟩ | ⟨bracketed, _, same⟩
  · have none : bracket (cells marked) marked.mark = [] := by
      rw [same]
      rfl
    rw [none, codeColumn]
    exact Nat.le_add_right _ _
  · rw [same, bracket, codeColumn, if_pos bracketed]
    split <;> simp

/-- The beginning of the span is marked. -/
theorem Marks.shown (marks : layout.Marks split span marked.mark) :
    (∃ carets later, (layout.picture split marked followed).others = carets :: later ∧
      carets[(layout.picture split marked followed).markColumn]? = some '^') ∨
    ((layout.codeRow marked).1[layout.numberWidth + 3]? = some '/' ∧
      (∀ cell ∈ (cells marked).take (Text.columnWidths split.passed),
        Text.isBlank cell = true) ∧
      utf8Length (split.front ++ split.text) < span.stop) := by
  obtain ⟨line, mark⟩ := marked
  rw [markColumn_picture]
  have next {carets : Row} (found : layout.caretRow? ⟨line, mark⟩
      (layout.codeRow ⟨line, mark⟩).2 = some carets) :
      (layout.picture split ⟨line, mark⟩ followed).others =
        carets :: followed.flatMap layout.rows := by
    rw [picture, found]
    rfl
  rcases marks with ⟨last, ordered, rfl⟩ | ⟨_, further, rfl⟩
  · obtain ⟨carets, found, caret⟩ := layout.caretRow?_whole _ ordered
    exact .inl ⟨carets, _, next found, caret⟩
  · cases front : beginsLine (shownText line.text) (Text.columnWidths split.passed) with
    | true =>
      exact .inr ⟨layout.codeRow_bracket _ rfl front, List.all_eq_true.mp front, further⟩
    | false =>
      obtain ⟨carets, found, caret⟩ := layout.caretRow?_begins _ front
      exact .inl ⟨carets, _, next found, caret⟩

/-- The picture shows the line in which a span begins. -/
theorem shows_picture (stands : split.Of source span.start) (reads : marked.line.Reads split)
    (room : (Nat.toDigits 10 marked.line.number).length ≤ layout.numberWidth)
    (marks : layout.Marks split span marked.mark)
    (uncut : ShortLines source → split.BeginsEarly →
      layout.window.left = 0 ∧ utf8Length (cells marked) ≤ layout.window.width) :
    (layout.picture split marked followed).Shows source span where
  line := stands
  gap := by
    rw [picture]
    dsimp only
    split
    · exact .inr rfl
    · exact .inl rfl
  number := by
    have begins := number_begins_codeRow layout marked room
    rw [numberCells, reads.number] at begins
    rw [reads.number] at room
    exact ⟨_, Nat.sub_add_cancel room, begins⟩
  cells := ⟨marked.line.text, reads.text.imp And.left And.left, displays_shownText _⟩
  code index cell held := by
    rw [codeColumn_picture] at held
    exact codeRow_cell layout marked room marks.clear index cell held
  whole short early := by
    obtain ⟨unmoved, fits⟩ := uncut short early
    rw [codeColumn_picture]
    exact codeRow_whole layout marked room marks.clear unmoved fits
  mark := marks.shown followed
  noNote := by
    intro row member
    rw [rows_picture] at member
    refine (?_ : Row.Opens layout.numberWidth row).not_isNote
    rcases List.mem_cons.mp member with rfl | member
    · exact layout.opens_barRow
    rcases List.mem_append.mp member with member | member
    · obtain ⟨shown, _, listed⟩ := List.mem_flatMap.mp member
      exact layout.opens_rows shown row listed
    · exact List.mem_singleton.mp member ▸ layout.opens_barRow

end Layout

/-- A line that begins early does so as well without the carriage return at its end. -/
theorem SourceLine.Reads.exists_indentation? {line : SourceLine} {split : LineSplit}
    (reads : line.Reads split) (early : split.BeginsEarly) :
    ∃ indentation, Window.indentation? line = some indentation ∧ indentation ≤ 26 := by
  obtain ⟨front, char, rest, parts, shown, few⟩ := early
  obtain ⟨rest, parts⟩ : ∃ rest, line.text = front ++ char :: rest := by
    rcases reads.text with ⟨same, _⟩ | ⟨same, _⟩
    · exact ⟨rest, same ▸ parts⟩
    · rw [parts] at same
      rcases List.eq_nil_or_concat' rest with rfl | ⟨rest, last, rfl⟩
      · obtain ⟨_, last⟩ := List.append_inj' same rfl
        obtain rfl : char = '\r' := by simpa using last
        exact absurd shown (by decide)
      · rw [← List.cons_append, ← List.append_assoc] at same
        exact ⟨rest, (List.append_inj' same rfl).1.symm⟩
  obtain ⟨indentation, found, less⟩ := Window.exists_indentation? parts shown
  exact ⟨indentation, found, less.trans few⟩

/-- The number behind those of the shown lines is no greater than that of a line behind the
    source text. -/
theorem Snippet.following_le {source : String} {span : Span} {split : LineSplit}
    (held : split.front ++ (Excerpt.ofSpan source span).chars <+: source.toList)
    (number : (Excerpt.ofSpan source span).number = split.number) :
    (ofSource source span).following ≤ source.toList.count '\n' + 2 := by
  have lines : (ofSource source span).marked.map MarkedLine.line =
      SourceLine.ofExcerpt (.ofSpan source span) := MarkedLine.map_line_ofLines span _
  have behind : (ofSource source span).following =
      (Excerpt.ofSpan source span).number + (ofSource source span).marked.length := rfl
  have count := held.sublist.count_le '\n'
  have length := SourceLine.length_split_le (Excerpt.ofSpan source span).number
    (Excerpt.ofSpan source span).start [] (Excerpt.ofSpan source span).chars
  have same := congrArg List.length lines
  rw [List.length_map, SourceLine.ofExcerpt] at same
  rw [List.count_append] at count
  rw [behind, number, LineSplit.number, same]
  omega

/-- A source text with short lines has room in the window, if the line in which a span begins is
    not set in by much. -/
theorem Snippet.uncut_layout {source : String} {span : Span} {split : LineSplit}
    {marked : MarkedLine} {later : List MarkedLine} {label : String}
    (held : split.front ++ (Excerpt.ofSpan source span).chars <+: source.toList)
    (number : (Excerpt.ofSpan source span).number = split.number)
    (first : (ofSource source span).marked = marked :: later)
    (reads : marked.line.Reads split) (short : ShortLines source.toList)
    (early : split.BeginsEarly) :
    ((ofSource source span).layout label).window.left = 0 ∧
      utf8Length (Layout.cells marked) ≤ ((ofSource source span).layout label).window.width := by
  obtain ⟨digits, few, sizes⟩ := short
  have lines : (ofSource source span).marked.map MarkedLine.line =
      SourceLine.ofExcerpt (.ofSpan source span) := MarkedLine.map_line_ofLines span _
  have piece : ∀ marked ∈ (ofSource source span).marked,
      utf8Length marked.line.text + 3 * marked.line.text.count '\t' + digits ≤ 137 := by
    intro marked member
    have listed : marked.line ∈ SourceLine.ofExcerpt (.ofSpan source span) :=
      lines ▸ List.mem_map_of_mem member
    obtain ⟨inside, noFeed⟩ := SourceLine.infix_of_mem_split List.not_mem_nil listed
    exact sizes _ (inside.trans ((List.suffix_append _ _).isInfix.trans held.isInfix)) noFeed
  have following : (ofSource source span).following < 10 ^ digits :=
    (following_le held number).trans_lt few
  have positive : 0 < digits := by
    rcases Nat.eq_zero_or_pos digits with rfl | positive
    · simp at few
    · exact positive
  have member : marked ∈ (ofSource source span).marked := first ▸ List.mem_cons_self
  obtain ⟨unmoved, width⟩ := Window.ofLines_uncut label.utf8ByteSize
    (fun marked member => by have := piece marked member; omega)
    ⟨marked, member, reads.exists_indentation? early⟩ following positive
  have bytes := utf8Length_shownText_le marked.line.text
  have size := piece marked member
  refine ⟨unmoved, ?_⟩
  rw [Layout.cells]
  change _ ≤ (Window.ofLines (ofSource source span).marked label.utf8ByteSize
    (ofSource source span).following).width
  omega

/-- The line in which a span begins has carets for it, in the columns of the span if it lies in the
    line, and else in the column in which it begins. -/
theorem LineMark.exists_ofLine? {source : List Char} {span : Span} {split : LineSplit}
    {line : SourceLine} (stands : split.Of source span.start) (reads : line.Reads split)
    (ordered : span.start ≤ span.stop) :
    ∃ mark, LineMark.ofLine? span line = some mark ∧ mark.hasCarets = true ∧
      ((∃ last, Text.columnWidths split.passed < last ∧
        mark = .whole (Text.columnWidths split.passed) last) ∨
      (line.reach < span.stop ∧ mark = .begins (Text.columnWidths split.passed))) := by
  have place := stands.place
  have begins : line.start ≤ span.start := by
    rw [place, reads.start, utf8Length_append]
    exact Nat.le_add_right _ _
  have column : line.column span.start = Text.columnWidths split.passed := by
    rw [place, reads.column_eq]
  rw [← column]
  rcases LineMark.ofLine?_of_begins begins (place ▸ reads.within) ordered with
    ⟨last, less, found⟩ | ⟨further, found⟩
  · exact ⟨_, found, rfl, .inl ⟨last, less, rfl⟩⟩
  · exact ⟨_, found, rfl, .inr ⟨further, rfl⟩⟩

/-- The snippet for a span shows the line in which the span begins. There has to be a character in
    the span or before it in the line. -/
theorem Snippet.exists_picture {source : String} {span : Span} {before text after : List Char}
    (parts : source.toList = before ++ text ++ after) (start : span.start = utf8Length before)
    (stop : span.stop = utf8Length (before ++ text))
    (visible : text ≠ [] ∨ before ≠ [] ∧ before.getLast? ≠ some '\n') (label : String) :
    ∃ picture : Picture, picture.Shows source.toList span ∧
      (Snippet.ofSource source span).rows none label = picture.rows := by
  obtain ⟨split, line, others, stands, reads, number, held, lines⟩ :=
    SourceLine.exists_first parts start stop visible
  have ordered : span.start ≤ span.stop := by
    rw [start, stop, utf8Length_append]
    exact Nat.le_add_right _ _
  obtain ⟨mark, found, carets, form⟩ := LineMark.exists_ofLine? stands reads ordered
  obtain ⟨later, known⟩ := MarkedLine.exists_ofLines_cons found others
  have marks : MarkedLine.hasCarets ⟨line, some mark⟩ = true := carets
  obtain ⟨followed, shows⟩ := ShownLine.exists_ofMarked_cons marks later
  have marked : (ofSource source span).marked = ⟨line, some mark⟩ :: later := by
    rw [← known, ← lines]
    rfl
  have shown : (ofSource source span).shown = .source ⟨line, some mark⟩ :: followed := by
    rw [← shows, ← known, ← lines]
    rfl
  have begun : ((ofSource source span).layout label).Marks split span (some mark) := by
    rcases form with ⟨last, less, rfl⟩ | ⟨further, rfl⟩
    · exact .inl ⟨last, less, rfl⟩
    · refine .inr ⟨?_, reads.beyond further, rfl⟩
      rw [layout, marked]
      rfl
  refine ⟨((ofSource source span).layout label).picture split ⟨line, some mark⟩ followed,
    Layout.shows_picture followed stands reads ?room begun ?uncut, ?rows⟩
  case room =>
    exact (ofSource source span).length_toDigits_le_numberWidth (shown ▸ List.mem_cons_self)
  case uncut => exact uncut_layout held number marked reads
  case rows => rw [rows_none, shown, Layout.rows_picture]

/-- A diagnostic is reported with a piece of a source text: behind its message stand the rows that
    show the line in which its span begins, and nothing else. -/
def Diagnostic.ShownIn (diagnostic : Diagnostic) (source : String) (span : Span) : Prop :=
  ∃ picture : Picture, picture.Shows source.toList span ∧
    diagnostic.render =
      "\n".intercalate (("error: " ++ diagnostic.cause.message) :: picture.rows.map String.ofList)

/-- A string ends with its closing quote. -/
theorem getLast?_of_stringText {chars : List Char} (written : Lexeme.stringText chars = true) :
    chars.getLast? = some '"' := by
  obtain ⟨_, _, quote, closing, rfl⟩ := Lexeme.mem_quotation.mpr written
  rw [Lexeme.mem_spelt.mp closing, List.getLast?_concat]

/-- No token ends with a line feed. -/
theorem Piece.getLast?_ne_feed {piece : Piece} (lexical : piece.isLexical = true) :
    piece.text.toList.getLast? ≠ some '\n' := by
  by_cases quoted : piece.kind = .string
  case pos =>
    obtain ⟨kind, text⟩ := piece
    obtain rfl : kind = .string := quoted
    rw [getLast?_of_stringText lexical]
    decide
  case neg =>
    intro last
    exact absurd (Piece.not_blank ⟨lexical, quoted⟩ _ (List.mem_of_getLast? last)) (by decide)

/-- There is a character in the span of a failure, or one before it that is no line feed. -/
theorem ParseError.Located.visible {error : ParseError} {source : String}
    (located : error.Located source) :
    ∃ before text after, source.toList = before ++ text ++ after ∧
      error.span.start = utf8Length before ∧ error.span.stop = utf8Length (before ++ text) ∧
        (text ≠ [] ∨ before ≠ [] ∧ before.getLast? ≠ some '\n') := by
  rcases located.filled with filled | ⟨tokens, last, given, rfl⟩
  · obtain ⟨text, before, after, parts, start, stop⟩ := located.cuts
    refine ⟨before, text, after, parts, start, stop, .inl ?_⟩
    rintro rfl
    rw [List.append_nil] at stop
    omega
  · have member : last ∈ tokens ++ [last] := List.mem_concat_self
    have lexical := lexical_of_tokens? given last member
    obtain ⟨before, after, parts, _, stop⟩ := (placed_of_tokens? given).held last member
    have some : last.text.toList ≠ [] := Piece.text_ne_nil lexical
    refine ⟨before ++ last.text.toList, [], after, by simpa using parts, stop, ?_,
      .inr ⟨by simp [some], ?_⟩⟩
    · rw [List.append_nil]
      exact stop
    · rw [List.getLast?_append_of_ne_nil _ some]
      exact Piece.getLast?_ne_feed lexical

/-- The diagnostic of a failure that is found in a source text is shown in it. -/
theorem ParseError.Located.shownIn {error : ParseError} {source : String}
    (located : error.Located source) :
    ((Diagnostic.ofCause (.parse error)).withSource source).ShownIn source error.span := by
  have snippet : ((Diagnostic.ofCause (.parse error)).withSource source).snippet? =
      some (.ok (.ofSource source error.span)) := congrArg some (if_pos located.inside)
  obtain ⟨before, text, after, parts, start, stop, visible⟩ := located.visible
  obtain ⟨picture, shows, rows⟩ := Snippet.exists_picture parts start stop visible error.message
  refine ⟨picture, shows, ?_⟩
  rw [Diagnostic.render, snippet]
  simp only [Diagnostic.declarationNote?, Diagnostic.withSource, Diagnostic.ofCause,
    Option.map_none, Option.toList_none, List.append_nil, List.flatMap_nil, Cause.message, rows]

/-- A processor that fails to read a program fails with the text that it read, which is the source
    with its placeholders exchanged. -/
theorem Processor.parseFailure_of_tryProcess {processor : Processor} {source : String}
    {failure : ShaderError} {error : ParseError}
    (failed : (processor.tryProcess source).1 = .error failure)
    (cause : (Diagnostic.ofError failure).cause = .parse error) :
    ∃ text, substitutePlaceholders source processor.data processor.placeholders = .ok text ∧
      compile text = .error error ∧ failure = parseFailure error text := by
  rw [tryProcess] at failed
  cases exchanged : substitutePlaceholders source processor.data processor.placeholders with
  | error literal =>
    rw [exchanged] at failed
    obtain rfl := Except.error.inj failed
    exact absurd cause (by simp [Diagnostic.ofError, Diagnostic.ofCause])
  | ok text =>
    refine ⟨text, rfl, ?_⟩
    rw [exchanged] at failed
    dsimp only at failed
    split at failed
    case isFalse => exact absurd failed (by simp)
    case isTrue =>
      rw [processProgram] at failed
      cases compiled : compile text with
      | error other =>
        rw [compiled] at failed
        obtain rfl := Except.error.inj failed
        obtain rfl : other = error := Cause.parse.inj cause
        exact ⟨rfl, rfl⟩
      | ok nodes =>
        rw [compiled] at failed
        dsimp only at failed
        split at failed
        case h_1 =>
          obtain rfl := Except.error.inj failed
          exact absurd cause
            (by simp [Diagnostic.ofError, constantFailure, Diagnostic.withDeclaration,
              Diagnostic.ofCause])
        case h_2 => exact absurd failed (by simp)

/-- A failure to read a source is found in this source, and its diagnostic is shown there: with the
    line in which the span of the failure begins, and without a note that there is nothing to show.
    The same holds of what a processor fails with, in the text that it read. -/
theorem parseFailures_shown :
    (∀ (source : String) (error : ParseError), compile source = .error error →
      error.Located source ∧
        ((Diagnostic.ofCause (.parse error)).withSource source).ShownIn source error.span) ∧
    ∀ (processor : Processor) (source : String) (failure : ShaderError) (error : ParseError),
      (processor.tryProcess source).1 = .error failure →
      (Diagnostic.ofError failure).cause = .parse error →
      ∃ text diagnostic,
        substitutePlaceholders source processor.data processor.placeholders = .ok text ∧
        compile text = .error error ∧ failure = .placed diagnostic ∧
        diagnostic.source = some text ∧ diagnostic.span = some error.span ∧
        error.Located text ∧ diagnostic.ShownIn text error.span := by
  constructor
  · intro source error failed
    have located := ParseError.located_of_compile failed
    exact ⟨located, located.shownIn⟩
  · intro processor source failure error failed cause
    obtain ⟨text, exchanged, compiled, rfl⟩ := Processor.parseFailure_of_tryProcess failed cause
    have located := ParseError.located_of_compile compiled
    exact ⟨text, _, exchanged, compiled, rfl, rfl, rfl, located, located.shownIn⟩

/-- The failure of a text that is longer than the source, since a placeholder was exchanged. -/
theorem parseFailures_shown_placeholder :
    ∃ processor diagnostic,
      (Processor.tryProcess processor "x=$n$;\ny z").1 = .error (.placed diagnostic) ∧
      diagnostic.source = some "x=10.0;\ny z" ∧ diagnostic.span = some ⟨8, 11⟩ ∧
      diagnostic.ShownIn "x=10.0;\ny z" ⟨8, 11⟩ := by
  let ten : Binary64 := .finite false 5629499534213120 (-49) (by decide)
  let processor : Processor :=
    { Processor.new with
      data := .ofList [("n", .scalar ten)]
      placeholders := .ofList [("n", .float)] }
  let error : ParseError :=
    .tokens ⟨.root, none, some ⟨.marker, ";", ⟨6, 7⟩⟩, "y z", ⟨8, 11⟩⟩
  have failed : (processor.tryProcess "x=$n$;\ny z").1 =
      .error (.placed ((Diagnostic.ofCause (.parse error)).withSource "x=10.0;\ny z")) := by
    decide +kernel
  obtain ⟨text, diagnostic, _, _, same, source, span, _, shown⟩ :=
    parseFailures_shown.2 processor "x=$n$;\ny z" _ error failed rfl
  obtain rfl := ShaderError.placed.inj same
  obtain rfl := Option.some.inj source
  exact ⟨processor, _, failed, source, span, shown⟩

/-- What is reported then. -/
example :
    ((Diagnostic.ofCause (.parse
      (.tokens ⟨.root, none, some ⟨.marker, ";", ⟨6, 7⟩⟩, "y z", ⟨8, 11⟩⟩))).withSource
        "x=10.0;\ny z").render =
      "error: failed to process tokens: `y z` (flags: root, expected: end of input, " ++
        "last token: marker<;>)\n" ++
      "  |\n" ++
      "2 | y z\n" ++
      "  | ^^^ failed to process tokens: `y z` (flags: root, expected: end of input, " ++
        "last token: marker<;>)\n" ++
      "  |" := by
  decide +kernel

end ShaderSource
