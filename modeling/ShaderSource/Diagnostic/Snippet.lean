import ShaderSource.Diagnostic.Basic
import ShaderSource.Text.ColumnWidth
import ShaderSource.Text.Lines

/-!
# Reports with a piece of the source

A report opens with the message. If the span of the failure is known and lies
in the source text, the lines of the span follow, with their numbers at the
left and the span marked by carets; a span of several lines is bracketed at the
left, from a first caret to a last one. Lines far from both ends of the span
are folded. Lines that are too long are cut, so that the span stays in view.

The report is made of rows of character cells. Marks are put into a row at the
column where they belong, over what is there.
-/

namespace ShaderSource

-- Powers of whole numbers are those of the core library, also under a richer algebra.
attribute [local instance (high)] instPowNat

-- The empty sum is the zero of the core library, also under a richer algebra.
attribute [local instance (high)] Zero.ofOfNat0

/-- The cells of a row. -/
abbrev Row : Type := List Char

namespace Row

/-- A row with a text from a column on, over what is there. Blanks fill the row up to that
    column only if there is a text to put there. -/
def put (row : Row) (column : Nat) (text : List Char) : Row :=
  if text.isEmpty then row
  else
    let padded := row ++ List.replicate (column - row.length) ' '
    padded.take column ++ text ++ padded.drop (column + text.length)

end Row

/-- A piece of a source text that begins with a line. -/
structure Excerpt where
  /-- The number of the first line. -/
  number : Nat
  /-- The place of the first character. -/
  start : Nat
  chars : List Char
  deriving DecidableEq, Repr

namespace Excerpt

/-- The excerpt from the line with a place on. `latest` is the excerpt from the last line
    that is known to begin at that place or before. -/
def fromLine (offset place : Nat) (latest : Excerpt) : List Char → Excerpt
  | [] => latest
  | char :: rest =>
    if place < offset then
      let next := place + char.utf8Size
      fromLine offset next (if char = '\n' then ⟨latest.number + 1, next, rest⟩ else latest) rest
    else latest

/-- The characters up to the end of the line with a place, without the line feed there. The
    place is given by the bytes before it. -/
def upToLineEnd : (bytes : Nat) → List Char → List Char
  | _, [] => []
  | bytes, char :: rest =>
    if bytes = 0 ∧ char = '\n' then [] else char :: upToLineEnd (bytes - char.utf8Size) rest

/-- The lines of a source text that a span touches. -/
def ofSpan (source : String) (span : Span) : Excerpt :=
  let whole : Excerpt := ⟨1, 0, source.toList⟩
  let tail := fromLine span.start 0 whole whole.chars
  { tail with chars := upToLineEnd (span.stop - tail.start) tail.chars }

end Excerpt

/-- A line of a source text. -/
structure SourceLine where
  number : Nat
  /-- The place of the first character. -/
  start : Nat
  text : List Char
  /-- The number of bytes that end the line: one for a line feed, two if a carriage return
      stands before it, and none for a last line without a line feed. -/
  endSize : Nat
  deriving DecidableEq, Repr

namespace SourceLine

/-- The place behind the last character. -/
def stop (line : SourceLine) : Nat := line.start + utf8Length line.text

/-- The place up to which a span counts as part of the line. Even without a line feed there
    is one place behind the last character. -/
def reach (line : SourceLine) : Nat := line.stop + max line.endSize 1

/-- The characters of a line within a number of bytes. -/
def charsWithin : (bytes : Nat) → List Char → List Char
  | _, [] => []
  | bytes, char :: rest =>
    if char.utf8Size ≤ bytes then char :: charsWithin (bytes - char.utf8Size) rest else []

/-- The characters of a line before a place. -/
def before (line : SourceLine) (offset : Nat) : List Char :=
  charsWithin (offset - line.start) line.text

/-- The column of a place in a line. -/
def column (line : SourceLine) (offset : Nat) : Nat := Text.columnWidths (line.before offset)

/-- The lines of a text, from a number and a place on. `current` is what is already known of
    the first line, its last character first. -/
def split (number start : Nat) (current : List Char) : List Char → List SourceLine
  | [] => if current.isEmpty then [] else [⟨number, start, current.reverse, 0⟩]
  | '\n' :: rest =>
    let line : SourceLine :=
      match current with
      | '\r' :: before => ⟨number, start, before.reverse, 2⟩
      | _ => ⟨number, start, current.reverse, 1⟩
    line :: split (number + 1) (line.stop + line.endSize) [] rest
  | char :: rest => split number start (char :: current) rest

/-- The lines of an excerpt. -/
def ofExcerpt (excerpt : Excerpt) : List SourceLine :=
  split excerpt.number excerpt.start [] excerpt.chars

end SourceLine

/-- What a span does in a line. The columns are those of the carets. -/
inductive LineMark where
  /-- The span lies in the line. -/
  | whole (first last : Nat)
  | begins (column : Nat)
  /-- The span goes on before the line and behind it. -/
  | passes
  | ends (column : Nat)
  deriving DecidableEq, Repr

namespace LineMark

/-- What a span does in a line, if anything. -/
def ofLine? (span : Span) (line : SourceLine) : Option LineMark :=
  if line.start ≤ span.start ∧ span.stop ≤ line.reach then
    let first := line.column span.start
    let last := line.column span.stop
    some (.whole first (if first = last then last + 1 else last))
  else if line.start ≤ span.start ∧ span.start ≤ line.stop + (line.endSize - 1) ∧
      line.stop < span.stop then
    some (.begins (line.column span.start))
  else if span.start < line.start ∧ line.reach < span.stop then some .passes
  else if span.start < line.start ∧ line.start ≤ span.stop ∧ span.stop ≤ line.reach then
    let column := line.column span.stop - 1
    some (.ends (if line.stop < span.stop then column + 1 else column))
  else none

/-- Whether nothing of the span is left behind a line. -/
def isLast : LineMark → Bool
  | whole .. | ends .. => true
  | begins .. | passes => false

/-- The first and last columns of the carets in a line. -/
def columns? : LineMark → Option (Nat × Nat)
  | whole first last => some (first, last)
  | begins column | ends column => some (column, column + 1)
  | passes => none

/-- Whether there are carets in a line. -/
def hasCarets (mark : LineMark) : Bool := mark.columns?.isSome

end LineMark

/-- A line with what the span does in it. -/
structure MarkedLine where
  line : SourceLine
  mark : Option LineMark
  deriving DecidableEq, Repr

namespace MarkedLine

/-- The lines of a text with what a span does in them. Behind the end of the span no line is
    marked. -/
def ofLines (span : Span) : List SourceLine → List MarkedLine
  | [] => []
  | line :: lines =>
    let mark := LineMark.ofLine? span line
    ⟨line, mark⟩ ::
      if mark.any LineMark.isLast then lines.map (⟨·, none⟩) else ofLines span lines

/-- Whether the span has carets in a line. -/
def hasCarets (marked : MarkedLine) : Bool := marked.mark.any LineMark.hasCarets

end MarkedLine

/-- A line that is shown, or the sign that lines are left out. -/
inductive ShownLine where
  | source (marked : MarkedLine)
  | fold (mark : Option LineMark)
  deriving DecidableEq, Repr

namespace ShownLine

/-- How many lines between two lines with carets are shown in full. -/
def greatestGap : Nat := 3

/-- The lines between two lines with carets. Of too many only the first and the last are
    shown, and the sign between them is marked like the first. -/
def ofGap (gap : List MarkedLine) : List ShownLine :=
  match gap with
  | [] => []
  | first :: others =>
    if gap.length ≤ greatestGap then gap.map source
    else [source first, fold first.mark, source (others.getLast?.getD first)]

/-- The lines that are shown behind a first line with carets. `gap` holds the lines since
    the last one with carets. -/
def following (gap : List MarkedLine) : List MarkedLine → List ShownLine
  | [] => []
  | marked :: rest =>
    if marked.hasCarets then ofGap gap ++ source marked :: following [] rest
    else following (gap ++ [marked]) rest

/-- The lines from the first with carets to the last. -/
def ofMarked (lines : List MarkedLine) : List ShownLine :=
  following [] (lines.dropWhile fun marked => !marked.hasCarets)

/-- The number of a shown line. -/
def number : ShownLine → Nat
  | source marked => marked.line.number
  | fold _ => 0

end ShownLine

/-! ## The window -/

/-- The part of the lines that is shown: from a column on, and up to another one if a line
    is too long. -/
structure Window where
  /-- The number of columns for source text. -/
  width : Nat
  left : Nat
  right : Nat
  /-- The last column that must not be cut off by the dots of a cut line. -/
  needed : Nat
  deriving DecidableEq, Repr

namespace Window

/-- The number of columns of a row. -/
def rowWidth : Nat := 140

/-- The room for dots beside what has to be seen. -/
def room : Nat := 6

/-- The indentation from which on lines are shifted, and how much of it is kept. -/
def greatestIndentation : Nat := 20
def keptIndentation : Nat := 16

/-- The indentation of a line that is not blank. -/
def indentation? (line : SourceLine) : Option Nat :=
  if line.text.all Text.isBlank then none
  else
    some ((line.text.takeWhile Text.isBlank).map fun char => if char = '\t' then 4 else 1).sum

/-- The indentation of lines that are all blank, greater than any other. -/
def boundless : Nat := 2 ^ (64 : Nat) - 1

/-- The window for some lines. `labelSize` is the length in bytes of the label behind the
    last caret. `following` is the number of the line behind the last one, which would have
    room too. -/
def ofLines (lines : List MarkedLine) (labelSize following : Nat) : Window :=
  let columns := lines.filterMap fun marked => marked.mark.bind LineMark.columns?
  let indentation :=
    ((lines.filterMap fun marked => indentation? marked.line).min?.getD boundless) - room
  let first := ((columns.map Prod.fst).min?.getD 0) - room
  let last := (columns.map Prod.snd).max?.getD 0 + room
  let label := (columns.map fun (_, last) => last + labelSize + 1).max?.getD 0 + room
  let longest := ((lines.map fun marked => utf8Length marked.line.text).max?).getD 0
  let left := if greatestIndentation < indentation then indentation - keptIndentation else 0
  let right := max longest left
  let width := rowWidth - (3 + (toString following).length)
  let window (left right : Nat) : Window :=
    ⟨width, left, right, if right = last ∨ right = label then right - room else right⟩
  if right - left ≤ width then window left right
  else if indentation ≤ label ∧ label - indentation ≤ width then window indentation (indentation + width)
  else if label - first ≤ width then
    let left := first - (width - (label - first)) / 2
    window left (left + width)
  else if last - first ≤ width then
    let left := first - (width - (last - first)) / 5 * 2
    window left (left + width)
  else window first last

/-- How many characters of a line with a number of bytes are skipped. -/
def skipped (window : Window) (bytes : Nat) : Nat := min window.left bytes

/-- Up to where a line with a number of bytes is shown. -/
def shownTo (window : Window) (bytes : Nat) : Nat :=
  if bytes - window.left ≤ window.width then bytes else min bytes window.right

/-- Whether the end of a line with a number of bytes is cut off. -/
def cutsEnd (window : Window) (bytes : Nat) : Bool :=
  window.needed < bytes && window.left + window.width < bytes

end Window

/-! ## Rows -/

/-- The characters that are left out of a shown line, since they would disturb the columns. -/
def isHiddenControl (char : Char) : Bool :=
  ['\u200D', '\u202A', '\u202B', '\u202C', '\u202D', '\u202E', '\u2066', '\u2067', '\u2068',
   '\u2069'].contains char

/-- A line as it is shown: a tab takes four columns. -/
def shownText (chars : List Char) : List Char :=
  chars.flatMap fun char =>
    if char = '\t' then Text.indentation.toList
    else if isHiddenControl char then []
    else [char]

/-- The columns that a character of a shown line takes. A control character takes one. -/
def shownWidth (char : Char) : Nat :=
  if Text.isControl char then 1 else Text.columnWidth char

/-- The characters at the front of a line that fit into some columns. -/
def fitting : (columns : Nat) → List Char → List Char
  | _, [] => []
  | columns, char :: rest =>
    if shownWidth char ≤ columns then char :: fitting (columns - shownWidth char) rest else []

/-- The outlines that all rows of a snippet share. -/
structure Layout where
  /-- The number of columns of the line numbers. -/
  numberWidth : Nat
  /-- Whether there is a bracket at the left. -/
  bracketed : Bool
  window : Window
  label : List Char

namespace Layout

/-- The column of the bracket at the left. -/
def bracketColumn (layout : Layout) : Nat := layout.numberWidth + 3

/-- The first column of source text. -/
def codeColumn (layout : Layout) : Nat :=
  layout.bracketColumn + if layout.bracketed then 2 else 0

/-- A row with the bar beside the line numbers only. -/
def barRow (layout : Layout) : Row := Row.put [] (layout.numberWidth + 1) ['|']

/-- The row of the number of a line. -/
def numberRow (layout : Layout) (number : Nat) : Row :=
  let digits := (toString number).toList
  List.replicate (layout.numberWidth - digits.length) ' ' ++ digits ++ [' ', '|']

/-- Whether a caret at a column has only blanks before it. Then the bracket begins beside
    its line. -/
def beginsLine (text : List Char) (column : Nat) : Bool := (text.take column).all Text.isBlank

/-- The sign of the bracket beside a line. -/
def bracket (text : List Char) : Option LineMark → List Char
  | some .passes | some (.ends _) => ['|']
  | some (.begins column) => if beginsLine text column then ['/'] else []
  | _ => []

/-- The row of a line, with the number of columns that were cut off at its left. The dots of
    a line with less than three columns in the window reach to the left, where the bracket
    stands over them. -/
def codeRow (layout : Layout) (marked : MarkedLine) : Row × Nat :=
  let text := shownText marked.line.text
  let bytes := utf8Length text
  let left := layout.window.skipped bytes
  let code := fitting (layout.window.shownTo bytes - left) (text.drop left)
  let row := layout.numberRow marked.line.number
  let row := row.put layout.codeColumn code
  let dots := ['.', '.', '.']
  let row := if 0 < layout.window.left then row.put layout.codeColumn dots else row
  let row :=
    if layout.window.cutsEnd bytes then
      row.put (layout.codeColumn + (code.map shownWidth).sum - 3) dots
    else row
  let row := row.put layout.bracketColumn (bracket text marked.mark)
  (row, ((text.take left).map shownWidth).sum)

/-- The row of the carets under a line, if it has any. Carets that were cut off with the front
    of the line all stand in the first column. -/
def caretRow? (layout : Layout) (marked : MarkedLine) (cut : Nat) : Option Row :=
  let cell (column : Nat) : Nat := layout.codeColumn + column - cut
  let labelled (row : Row) (last : Nat) : Row :=
    row.put (layout.codeColumn + (last + 1 - cut)) layout.label
  match marked.mark with
  | some (.whole first last) =>
    let carets := if first < last then List.replicate (cell (last - 1) + 1 - cell first) '^' else []
    some (labelled (layout.barRow.put (cell first) carets) last)
  | some (.begins column) =>
    if beginsLine (shownText marked.line.text) column then none
    else
      let line := List.replicate (cell column - (layout.bracketColumn + 1)) '_'
      some ((layout.barRow.put (layout.bracketColumn + 1) line).put (cell column) ['^'])
  | some (.ends column) =>
    let line := List.replicate (cell column - (layout.bracketColumn + 1)) '_'
    let row := (layout.barRow.put layout.bracketColumn ['|']).put (layout.bracketColumn + 1) line
    some (labelled (row.put (cell column) ['^']) (column + 1))
  | _ => none

/-- The rows of a shown line. -/
def rows (layout : Layout) : ShownLine → List Row
  | .source marked =>
    let (row, cut) := layout.codeRow marked
    match layout.caretRow? marked cut with
    | some carets => [row, carets]
    | none => [row]
  | .fold mark =>
    let row : Row := ['.', '.', '.']
    match mark with
    | some _ => [row.put layout.bracketColumn ['|']]
    | none => [row]

end Layout

/-! ## Reports -/

/-- The lines that are shown for a span of a source text, and where the span begins. -/
structure Snippet where
  marked : List MarkedLine
  /-- The number of the line behind the last one. -/
  following : Nat
  shown : List ShownLine
  /-- The line and the column of the beginning, both counted from one. -/
  origin : Nat × Nat

namespace Snippet

/-- The line and column of a place among some lines. -/
def place (offset : Nat) (lines : List SourceLine) : Nat × Nat :=
  match lines.find? fun line => line.start ≤ offset && offset < line.reach with
  | some line => (line.number, (line.before offset).length + 1)
  | none => (1, 1)

/-- The snippet for a span of a source text. -/
def ofSource (source : String) (span : Span) : Snippet :=
  let excerpt := Excerpt.ofSpan source span
  let marked := MarkedLine.ofLines span (SourceLine.ofExcerpt excerpt)
  let shown := ShownLine.ofMarked marked
  let lines := shown.filterMap fun
    | .source marked => some marked.line
    | .fold _ => none
  ⟨marked, excerpt.number + marked.length, shown, place span.start lines⟩

/-- The number of columns for the line numbers. -/
def numberWidth (snippet : Snippet) : Nat :=
  match (snippet.shown.map ShownLine.number).max? with
  | some greatest => (toString greatest).length
  | none => 0

/-- The rows of a snippet under the name of its file. -/
def rows (snippet : Snippet) (file : Option String) (label : String) : List Row :=
  let layout : Layout :=
    { numberWidth := snippet.numberWidth
      bracketed := snippet.marked.any fun marked => marked.mark.any fun
        | .whole .. => false
        | _ => true
      window := .ofLines snippet.marked label.utf8ByteSize snippet.following
      label := label.toList }
  let header : List Row :=
    match file with
    | some file =>
      let (line, column) := snippet.origin
      let arrow := Row.put [] layout.numberWidth ['-', '-', '>']
      [arrow.put (layout.numberWidth + 4) file.toList ++
        (":" ++ toString line ++ ":" ++ toString column).toList]
    | none => []
  header ++ [layout.barRow] ++ snippet.shown.flatMap layout.rows ++ [layout.barRow]

end Snippet

/-- The rows of a note under a snippet. Each line after the first stands under the text of
    the first. -/
def noteRows (numberWidth : Nat) (note : String) : List Row :=
  match Text.lines note.toList with
  | [] => []
  | first :: others =>
    (List.replicate (numberWidth + 1) ' ' ++ "= note: ".toList ++ first) ::
      others.map fun line => List.replicate (numberWidth + 9) ' ' ++ line

namespace Diagnostic

/-- The snippet of a diagnostic, or the note that there is none. -/
def snippet? (diagnostic : Diagnostic) : Option (Except String Snippet) :=
  diagnostic.span.map fun span =>
    match diagnostic.source with
    | none => .error "cannot display snippet: missing source file"
    | some source =>
      if span.stop ≤ source.utf8ByteSize then .ok (.ofSource source span)
      else .error "cannot display snippet: invalid source location"

/-- The note about the declaration at fault. -/
def declarationNote? (diagnostic : Diagnostic) : Option String :=
  diagnostic.declaration.map fun declaration =>
    match diagnostic.file with
    | some file => "in declaration of `" ++ declaration ++ "` in `" ++ file ++ "`"
    | none => "in declaration of `" ++ declaration ++ "`"

/-- The whole report of a failure. -/
def render (diagnostic : Diagnostic) : String :=
  let message := diagnostic.cause.message
  let (body, numberWidth, missing) : List Row × Nat × List String :=
    match diagnostic.snippet? with
    | some (.ok snippet) => (snippet.rows diagnostic.file message, snippet.numberWidth, [])
    | some (.error note) => ([], 0, [note])
    | none => ([], 0, [])
  let notes := (missing ++ diagnostic.declarationNote?.toList).flatMap (noteRows numberWidth)
  "\n".intercalate
    (("error: " ++ message) :: (body ++ notes).map String.ofList)

end Diagnostic

/-- The report of the failure of a whole run. -/
def ShaderError.render : ShaderError → String
  | .bare cause => cause.message
  | .placed diagnostic => diagnostic.render

end ShaderSource
