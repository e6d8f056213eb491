import ShaderSource.Proofs.Token.Longest
import ShaderSource.Text.Lines

/-!
# Texts that are split into given pieces

A text is typeset from some pieces if it consists of their texts with spaces and
line feeds between them, and no piece is read along with what follows it. Such
texts can be put one behind the other where the second begins apart from the
first, and their lines can be set in. They are split into exactly the pieces
that they are typeset from.
-/

namespace ShaderSource

open Lexeme

/-- Whether what follows a piece goes on neither with a name nor with a fraction. -/
def apart (chars : List Char) : Bool :=
  !chars.head?.any continuesIdentifier && !beginsFraction chars

/-- Some pieces with blanks between them. What follows the text is apart from it. -/
inductive Typeset : List Char → List Piece → Prop
  | done : Typeset [] []
  | blank {char : Char} {chars : List Char} {pieces : List Piece}
      (gap : char = ' ' ∨ char = '\n') (later : Typeset chars pieces) :
      Typeset (char :: chars) pieces
  | piece {piece : Piece} {chars : List Char} {pieces : List Piece}
      (plain : piece.Plain)
      (ends : ∀ rest, apart rest = true → piece.endsBefore (chars ++ rest) = true)
      (later : Typeset chars pieces) : Typeset (piece.text.toList ++ chars) (piece :: pieces)

namespace Piece

/-- A lexical piece has a text. -/
theorem text_ne_nil {piece : Piece} (lexical : piece.isLexical = true) :
    piece.text.toList ≠ [] := by
  intro empty
  by_cases fixed : piece.kind.isFixed = true
  · have each : ∀ entry ∈ symbols, entry.1 ≠ [] := by decide
    exact each _ (mem_symbols lexical fixed) empty
  · obtain ⟨kind, text⟩ := piece
    dsimp only at empty
    cases kind with
    | identifier | integer | float | string =>
      simp [isLexical, empty, identifierText, integerText, floatText, stringText] at lexical
    | _ => exact absurd rfl fixed

/-- There are no blanks in a plain piece. -/
theorem not_blank {piece : Piece} (plain : piece.Plain) :
    ∀ char ∈ piece.text.toList, Text.isBlank char = false := by
  obtain ⟨lexical, noString⟩ := plain
  intro char member
  by_cases fixed : piece.kind.isFixed = true
  · exact not_blank_of_mem_symbols (mem_symbols lexical fixed) char member
  · have digit : ∀ char : Char, char.isDigit = true → Text.isBlank char = false :=
      fun char digit => not_blank_of_continuesIdentifier (by simp [continuesIdentifier, digit])
    obtain ⟨kind, text⟩ := piece
    cases kind with
    | identifier =>
      have written : identifierText text.toList = true := lexical
      cases shown : text.toList with
      | nil => exact absurd shown (text_ne_nil lexical)
      | cons first others =>
        simp only [shown, identifierText, Bool.and_eq_true, List.all_eq_true] at written
        rcases List.mem_cons.mp (shown ▸ member) with rfl | member
        · exact not_blank_of_continuesIdentifier (by simp [continuesIdentifier, written.1])
        · exact not_blank_of_continuesIdentifier (written.2 char member)
    | integer =>
      have written : integerText text.toList = true := lexical
      simp only [integerText, Bool.and_eq_true, List.all_eq_true] at written
      exact digit char (written.2 char member)
    | float =>
      have written : floatText text.toList = true := lexical
      unfold floatText at written
      split at written
      case h_1 fraction behind =>
        rw [← List.takeWhile_append_dropWhile (p := Char.isDigit) (l := text.toList), behind] at member
        simp only [integerText, Bool.and_eq_true, List.all_eq_true] at written
        rcases List.mem_append.mp member with member | member
        · exact digit char (List.all_eq_true.mp List.all_takeWhile char member)
        · rcases List.mem_cons.mp member with rfl | member
          · decide
          · exact digit char (written.2 char member)
      case h_2 => simp at written
    | string => exact absurd rfl noString
    | _ => exact absurd rfl fixed

end Piece

namespace Lexer

/-- A blank is skipped. -/
theorem read_blank {char : Char} (blank : Text.isBlank char = true) (chars : List Char)
    (offset : Nat) : read (char :: chars) offset = read chars (offset + char.utf8Size) := by
  have noSlash : char ≠ '/' := by rintro rfl; exact absurd blank (by decide)
  have noQuote : char ≠ '"' := by rintro rfl; exact absurd blank (by decide)
  have first : read (char :: chars) offset =
      read (chars.dropWhile Text.isBlank)
        (offset + utf8Length (char :: chars.takeWhile Text.isBlank)) := by
    rw [read, longest?_plain noSlash noQuote]
    simp only [blank, if_true, Nat.add_comm 1, List.take_succ_cons,
      take_runLength, Nat.add_sub_cancel, drop_runLength]
  rw [first]
  cases chars with
  | nil => simp
  | cons next others =>
    by_cases gap : Text.isBlank next = true
    · have noSlash : next ≠ '/' := by rintro rfl; exact absurd gap (by decide)
      have noQuote : next ≠ '"' := by rintro rfl; exact absurd gap (by decide)
      rw [read, longest?_plain noSlash noQuote]
      simp only [gap, if_true, Nat.add_comm 1, List.take_succ_cons, take_runLength,
        Nat.add_sub_cancel, drop_runLength, List.takeWhile_cons, List.dropWhile_cons,
        utf8Length_cons, Nat.add_assoc]
    · simp [gap]

/-- A lexical piece at the front of a text is read there, if nothing behind it is read along
    with it. -/
theorem read_piece {piece : Piece} (lexical : piece.isLexical = true) {rest : List Char}
    (ends : piece.endsBefore rest = true) (offset : Nat) :
    ∃ token after, read (piece.text.toList ++ rest) offset = some (.ok token, after) ∧
      token.piece = piece ∧ after.rest = rest := by
  have found := Piece.longest?_eq lexical ends
  cases shown : piece.text.toList with
  | nil => exact absurd shown (Piece.text_ne_nil lexical)
  | cons first others =>
    rw [shown] at found
    rw [List.cons_append] at found ⊢
    rw [read, found]
    refine ⟨_, _, rfl, ?_, by simp⟩
    have front : (first :: (others ++ rest)).take (first :: others).length = piece.text.toList := by
      rw [← List.cons_append, List.take_left, shown]
    simp only [Token.piece, front, String.ofList_toList]

end Lexer

/-- Nothing is left at the end of a text. -/
theorem Lexed.ofChars_nil (offset : Nat) : ofChars [] offset = ⟨[], "", offset⟩ := by
  rw [ofChars, Lexer.read]
  rfl

/-- What the reader skips in front of a text has no part in the tokens of the text. -/
theorem Lexed.ofChars_skip (skipped : List Char) {chars : List Char} {offset : Nat}
    (skips : Lexer.read (skipped ++ chars) offset =
      Lexer.read chars (offset + utf8Length skipped)) :
    ofChars (skipped ++ chars) offset = ofChars chars (offset + utf8Length skipped) := by
  rw [ofChars, ofChars.eq_def chars, skips]
  simp [Nat.add_assoc]

/-- A blank in front of a text only moves the offset. -/
theorem Lexed.ofChars_blank {char : Char} (blank : Text.isBlank char = true) (chars : List Char)
    (offset : Nat) : ofChars (char :: chars) offset = ofChars chars (offset + char.utf8Size) :=
  ofChars_skip [char] (Lexer.read_blank blank chars offset)

/-- A lexical piece at the front of a text is its first token, if nothing behind it is read along
    with it. -/
theorem Lexed.ofChars_piece {piece : Piece} (lexical : piece.isLexical = true) {rest : List Char}
    (ends : piece.endsBefore rest = true) (offset : Nat) :
    ∃ token later, ofChars (piece.text.toList ++ rest) offset =
        { ofChars rest later with tokens := token :: (ofChars rest later).tokens } ∧
      token.piece = piece := by
  obtain ⟨token, after, taken, shown, rfl⟩ := Lexer.read_piece lexical ends offset
  refine ⟨token, after.offset, ?_, shown⟩
  rw [ofChars]
  split
  case h_1 stopped => simp [taken] at stopped
  case h_2 failed => simp [taken] at failed
  case h_3 token' after' found =>
    obtain ⟨rfl, rfl⟩ : token = token' ∧ after = after' := by simpa [taken] using found
    rfl

/-- A text without a remainder is read completely. -/
theorem Lexed.tokens?_of_remainder {lexed : Lexed} (complete : lexed.remainder = "") :
    lexed.tokens? = .ok lexed.tokens := by
  unfold tokens?
  rw [complete]
  rfl

/-- A typeset text is read completely, and it gives the pieces it is typeset from. -/
theorem Typeset.ofChars {chars : List Char} {pieces : List Piece} (typeset : Typeset chars pieces)
    (offset : Nat) :
    (Lexed.ofChars chars offset).remainder = "" ∧
      (Lexed.ofChars chars offset).tokens.map Token.piece = pieces := by
  induction typeset generalizing offset with
  | done =>
    rw [Lexed.ofChars_nil]
    exact ⟨rfl, rfl⟩
  | @blank char _ _ gap _ inductionHypothesis =>
    have blank : Text.isBlank char = true := by rcases gap with rfl | rfl <;> decide
    rw [Lexed.ofChars_blank blank]
    exact inductionHypothesis _
  | piece plain ends _ inductionHypothesis =>
    have free := ends [] rfl
    rw [List.append_nil] at free
    obtain ⟨token, later, split, rfl⟩ := Lexed.ofChars_piece plain.lexical free offset
    obtain ⟨complete, same⟩ := inductionHypothesis later
    rw [split]
    exact ⟨complete, by rw [List.map_cons, same]⟩

namespace Typeset

/-- A text can be put behind another one if it begins apart from it. -/
theorem append {chars others : List Char} {pieces further : List Piece}
    (first : Typeset chars pieces) (second : Typeset others further)
    (begins : ∀ rest, apart rest = true → apart (others ++ rest) = true) :
    Typeset (chars ++ others) (pieces ++ further) := by
  induction first with
  | done => exact second
  | blank gap _ inductionHypothesis => exact .blank gap inductionHypothesis
  | piece plain ends _ inductionHypothesis =>
    rw [List.append_assoc]
    refine .piece plain (fun rest free => ?_) inductionHypothesis
    rw [List.append_assoc]
    exact ends _ (begins rest free)

/-- Nothing is typeset from an empty text. -/
theorem pieces_eq_nil {pieces : List Piece} (typeset : Typeset [] pieces) : pieces = [] := by
  generalize shown : ([] : List Char) = chars at typeset
  cases typeset with
  | done => rfl
  | blank => simp at shown
  | piece plain =>
    exact absurd (List.append_eq_nil_iff.mp shown.symm).1 (Piece.text_ne_nil plain.lexical)

/-- There is no carriage return in a typeset text. -/
theorem no_return {chars : List Char} {pieces : List Piece} (typeset : Typeset chars pieces) :
    '\r' ∉ chars := by
  induction typeset with
  | done => simp
  | blank gap _ inductionHypothesis =>
    rcases gap with rfl | rfl <;> simpa using inductionHypothesis
  | piece plain _ _ inductionHypothesis =>
    rw [List.mem_append, not_or]
    refine ⟨fun member => ?_, inductionHypothesis⟩
    exact absurd (Piece.not_blank plain _ member) (by decide)

end Typeset

namespace Text

/-- A text with a step of indentation behind every line feed. -/
def spread (chars : List Char) : List Char :=
  chars.flatMap fun char => if char = '\n' then '\n' :: indentation.toList else [char]

/-- Nothing is set in of an empty text. -/
@[simp]
theorem spread_nil : spread [] = [] := rfl

/-- Two texts are set in one after the other. -/
@[simp]
theorem spread_append (chars others : List Char) :
    spread (chars ++ others) = spread chars ++ spread others := List.flatMap_append

/-- Only line feeds are followed by an indentation. -/
theorem spread_cons_of_ne {char : Char} (other : char ≠ '\n') (chars : List Char) :
    spread (char :: chars) = char :: spread chars := by
  simp [spread, List.flatMap_cons, other]

/-- A line feed is followed by an indentation. -/
theorem spread_newline (chars : List Char) :
    spread ('\n' :: chars) = '\n' :: (indentation.toList ++ spread chars) := by
  simp [spread, List.flatMap_cons]

/-- A text without line feeds is one line. -/
theorem spread_of_line {chars : List Char} (line : '\n' ∉ chars) : spread chars = chars := by
  induction chars with
  | nil => rfl
  | cons char chars inductionHypothesis =>
    simp only [List.mem_cons, not_or] at line
    rw [spread_cons_of_ne (Ne.symm line.1), inductionHypothesis line.2]

/-- The lines of a text follow each other with a line feed between them. -/
theorem lines_spread {chars : List Char} (filled : chars ≠ []) (noReturn : '\r' ∉ chars)
    (noFeed : chars.getLast? ≠ some '\n') :
    ∃ first others, lines chars = first :: others ∧
      spread chars = first ++ others.flatMap fun line => '\n' :: (indentation.toList ++ line) := by
  induction chars with
  | nil => exact absurd rfl filled
  | cons char chars inductionHypothesis =>
    simp only [List.mem_cons, not_or] at noReturn
    cases chars with
    | nil =>
      have other : char ≠ '\n' := by simpa using noFeed
      refine ⟨[char], [], ?_, by simp [spread_cons_of_ne other]⟩
      simp [lines]
    | cons next rest =>
      obtain ⟨first, others, split, joined⟩ :=
        inductionHypothesis (by simp) noReturn.2 (by simpa using noFeed)
      by_cases feed : char = '\n'
      · subst feed
        refine ⟨[], first :: others, by simp [lines, split], ?_⟩
        rw [spread_newline, joined]
        simp
      · refine ⟨char :: first, others, ?_, by rw [spread_cons_of_ne feed, joined]; simp⟩
        rw [lines]
        · rw [split]
        · exact feed
        · exact fun _ same => absurd same.symm noReturn.1

/-- A separator stands before each text but the first. -/
theorem intercalate_cons (separator first : List Char) (others : List (List Char)) :
    separator.intercalate (first :: others) =
      first ++ others.flatMap fun other => separator ++ other := by
  induction others generalizing first with
  | nil => simp
  | cons second others inductionHypothesis =>
    rw [List.intercalate_cons_cons, inductionHypothesis]
    simp

/-- Items in turn with a separator end as the last item does. -/
theorem getLast?_intercalate {separator : List Char} {char : Char} {items : List (List Char)}
    (filled : items ≠ []) (each : ∀ item ∈ items, item ≠ [] ∧ item.getLast? ≠ some char) :
    separator.intercalate items ≠ [] ∧ (separator.intercalate items).getLast? ≠ some char := by
  induction items with
  | nil => exact absurd rfl filled
  | cons first others inductionHypothesis =>
    rw [List.forall_mem_cons] at each
    cases others with
    | nil => simpa using each.1
    | cons second others =>
      obtain ⟨some, last⟩ := inductionHypothesis (by simp) each.2
      rw [List.intercalate_cons_cons]
      constructor
      · simp [some]
      · rwa [List.getLast?_append, Option.or_of_isSome (by simp [some])]

/-- To set in the lines of a text is to begin each of them with a step of indentation. -/
theorem toList_indent {text : String} (filled : text.toList ≠ []) (noReturn : '\r' ∉ text.toList)
    (noFeed : text.toList.getLast? ≠ some '\n') :
    (indent text).toList = indentation.toList ++ spread text.toList := by
  obtain ⟨first, others, split, joined⟩ := lines_spread filled noReturn noFeed
  rw [indent, String.toList_intercalate, split, joined]
  simp only [List.map_cons, intercalate_cons, String.toList_append, String.toList_ofList,
    List.map_map, List.flatMap_map, List.append_assoc, Function.comp_apply]
  rfl

end Text

namespace Typeset

/-- Only the first two characters behind a piece can be read along with it. -/
theorem endsBefore_take (piece : Piece) (rest : List Char) :
    piece.endsBefore rest = piece.endsBefore (rest.take 2) := by
  obtain ⟨kind, text⟩ := piece
  match rest with
  | [] => rfl
  | [_] => rfl
  | point :: digit :: others =>
    cases kind with
    | integer => by_cases pointed : point = '.' <;> simp [Piece.endsBefore, beginsFraction, pointed]
    | _ => rfl

/-- A text stays typeset behind an indentation. -/
theorem indentation_append {chars : List Char} {pieces : List Piece}
    (typeset : Typeset chars pieces) : Typeset (Text.indentation.toList ++ chars) pieces :=
  .blank (.inl rfl) (.blank (.inl rfl) (.blank (.inl rfl) (.blank (.inl rfl) typeset)))

/-- A text stays typeset when steps of indentation are put behind its line feeds. -/
theorem spread {chars : List Char} {pieces : List Piece} (typeset : Typeset chars pieces) :
    Typeset (Text.spread chars) pieces := by
  induction typeset with
  | done => exact .done
  | blank gap _ inductionHypothesis =>
    rcases gap with rfl | rfl
    · rw [Text.spread_cons_of_ne (by decide)]
      exact .blank (.inl rfl) inductionHypothesis
    · rw [Text.spread_newline]
      exact .blank (.inr rfl) inductionHypothesis.indentation_append
  | @piece piece chars _ plain ends _ inductionHypothesis =>
    have line : '\n' ∉ piece.text.toList := fun member =>
      absurd (Piece.not_blank plain _ member) (by decide)
    rw [Text.spread_append, Text.spread_of_line line]
    refine .piece plain (fun rest free => ?_) inductionHypothesis
    have known := ends rest free
    match chars with
    | [] => exact known
    | first :: others =>
      by_cases feed : first = '\n'
      · rw [feed, Text.spread_newline]
        exact piece.endsBefore_blank (by decide) _
      · rw [Text.spread_cons_of_ne feed]
        match others with
        | [] => exact known
        | second :: others =>
          rw [endsBefore_take] at known ⊢
          by_cases feed' : second = '\n'
          · rw [feed', Text.spread_newline]
            rw [feed'] at known
            exact known
          · rw [Text.spread_cons_of_ne feed']
            exact known

/-- A text stays typeset when its lines are set in. -/
theorem indent {text : String} {pieces : List Piece} (typeset : Typeset text.toList pieces)
    (filled : text.toList ≠ []) (noFeed : text.toList.getLast? ≠ some '\n') :
    Typeset (Text.indent text).toList pieces := by
  rw [Text.toList_indent filled typeset.no_return noFeed]
  exact typeset.spread.indentation_append

end Typeset

end ShaderSource
