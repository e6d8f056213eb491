import ShaderSource.Proofs.Token.Partition

/-!
# Texts one below the other

A line feed ends whatever is read before it, but for blanks, which are skipped
one by one, and for a comment or a string that is still open. So a text with
another one below it gives its own tokens and then those of the other, if it is
read completely and opens no comment.

A slash and a star of a comment that is never closed are two tokens, and what is
put below the text could close it. In a text without such a pair of tokens no
comment is open at the end.
-/

namespace ShaderSource

open Lexeme

namespace Lexeme

variable {rest : List Char}

/-- A line feed that does not belong to a run ends it. -/
theorem runLength_line {property : Char → Bool} (stops : property '\n' = false)
    (chars : List Char) :
    runLength property (chars ++ '\n' :: rest) = runLength property chars := by
  induction chars with
  | nil => simp [runLength, stops]
  | cons char chars inductionHypothesis =>
    simp only [runLength] at inductionHypothesis
    by_cases holds : property char = true
    · simp [runLength, holds, inductionHypothesis]
    · simp [runLength, holds]

/-- No number goes beyond its line. -/
theorem number?_line (chars : List Char) : number? (chars ++ '\n' :: rest) = number? chars := by
  have inside : runLength Char.isDigit chars ≤ chars.length :=
    (List.takeWhile_sublist _).length_le
  rw [number?, number?, runLength_line (by decide), List.drop_append_of_le_length inside]
  cases chars.drop (runLength Char.isDigit chars) with
  | nil => rfl
  | cons next others =>
    by_cases point : next = '.'
    · subst point
      simp only [List.cons_append, runLength_line (by decide : Char.isDigit '\n' = false)]
    · simp [point]

/-- No symbol goes beyond its line. -/
theorem symbol?_line (char : Char) (chars : List Char) :
    symbol? (char :: (chars ++ '\n' :: rest)) = symbol? (char :: chars) := by
  cases chars with
  | nil => exact symbol?_cons (continuesSymbol_blank (by decide) char)
  | cons next others =>
    rw [symbol?_take, symbol?_take (char :: next :: others)]
    rfl

/-- A text begins with a sign if it does so with a line feed behind it. -/
theorem ne_cons_line {first sign : Char} {chars : List Char} (visible : sign ≠ '\n')
    (noSign : ∀ others, first = '/' → chars = sign :: others → False) :
    ∀ others, first = '/' → chars ++ '\n' :: rest = sign :: others → False := by
  intro others slash same
  cases chars with
  | nil => exact visible (List.cons.inj same).1.symm
  | cons next chars =>
    obtain ⟨rfl, _⟩ := List.cons.inj same
    exact noSign chars slash rfl

/-- A number or a fixed spelling ends with its line. -/
theorem longest?_other_line {first : Char} {chars : List Char}
    (noLine : ∀ others, first = '/' → chars = '/' :: others → False)
    (noBlock : ∀ others, first = '/' → chars = '*' :: others → False) (noQuote : first ≠ '"')
    (noBlank : ¬ Text.isBlank first = true) (noName : ¬ beginsIdentifier first = true) :
    longest? (first :: (chars ++ '\n' :: rest)) = longest? (first :: chars) := by
  have number : number? (first :: (chars ++ '\n' :: rest)) = number? (first :: chars) :=
    number?_line (first :: chars)
  rw [longest?_other (ne_cons_line (by decide) noLine) (ne_cons_line (by decide) noBlock)
    noQuote noBlank noName, number, symbol?_line,
    longest?_other noLine noBlock noQuote noBlank noName]

/-- What is found at the front of a text is found there with any text below it as well, unless it
    is a blank or the slash of an open comment. -/
theorem longest?_line {first : Char} {chars : List Char} {result : Lexeme × Nat}
    (found : longest? (first :: chars) = some result) (visible : Text.isBlank first = false)
    (closed : ∀ others, first = '/' → chars = '*' :: others → blockCommentTail others ≠ none) :
    longest? (first :: (chars ++ '\n' :: rest)) = some result := by
  generalize shown : first :: chars = text at found
  revert found
  fun_cases longest? text with
  | case1 => exact absurd shown (List.cons_ne_nil first chars)
  | case2 others =>
    obtain ⟨rfl, rfl⟩ := List.cons.inj shown
    intro found
    have ends : runLength (· != '\n') (others ++ '\n' :: rest) = runLength (· != '\n') others :=
      runLength_line (by decide) others
    rw [← found, List.cons_append, longest?, ends]
  | case3 others length ends =>
    obtain ⟨rfl, rfl⟩ := List.cons.inj shown
    intro found
    rw [← found]
    exact longest?_closed (blockCommentTail_extend ends)
  | case4 others ends =>
    obtain ⟨rfl, rfl⟩ := List.cons.inj shown
    exact absurd ends (closed others rfl rfl)
  | case5 others =>
    obtain ⟨rfl, rfl⟩ := List.cons.inj shown
    intro found
    obtain ⟨length, ends, rfl⟩ := Option.map_eq_some_iff.mp found
    simp [longest?, stringTail_append ends]
  | case6 char others _ _ _ blank =>
    obtain ⟨rfl, rfl⟩ := List.cons.inj shown
    rw [blank] at visible
    exact absurd visible (by decide)
  | case7 char others noLine noBlock noQuote noBlank begins =>
    obtain ⟨rfl, rfl⟩ := List.cons.inj shown
    intro found
    rw [← found, longest?_name begins, runLength_line (by decide)]
  | case8 char others noLine noBlock noQuote noBlank noName kind length number =>
    obtain ⟨rfl, rfl⟩ := List.cons.inj shown
    intro found
    rw [← found, longest?_other_line noLine noBlock noQuote noBlank noName,
      longest?_other noLine noBlock noQuote noBlank noName, number]
  | case9 char others noLine noBlock noQuote noBlank noName number =>
    obtain ⟨rfl, rfl⟩ := List.cons.inj shown
    intro found
    rw [← found, longest?_other_line noLine noBlock noQuote noBlank noName,
      longest?_other noLine noBlock noQuote noBlank noName, number]

/-- What is found at the front of a text is part of it. -/
theorem length_le_of_found {chars : List Char} {lexeme : Lexeme} {length : Nat}
    (found : longest? chars = some (lexeme, length)) : length ≤ chars.length := by
  obtain ⟨pattern, declared, _, fits⟩ := Pattern.exists_of_longest? found
  by_contra beyond
  have whole : chars.take length = chars := List.take_of_length_le (by omega)
  rw [whole] at fits
  have same := found.symm.trans (Pattern.longest?_self declared fits)
  obtain ⟨_, rfl⟩ := Prod.mk.inj (Option.some.inj same)
  exact beyond (Nat.le_refl _)

end Lexeme

/-- The longest piece of a text is so with any text below it, unless it is a run of blanks or the
    slash of an open comment. -/
theorem Longest.line {piece rest : List Char} {pattern : Pattern}
    (longest : Longest (piece ++ rest) piece pattern)
    (visible : ∀ first ∈ piece.head?, Text.isBlank first = false)
    (closed : ∀ others, piece ++ rest = '/' :: '*' :: others → blockCommentTail others ≠ none)
    (below : List Char) : Longest (piece ++ (rest ++ '\n' :: below)) piece pattern := by
  obtain ⟨length, found, taken⟩ := longest.exists_found
  have inside := length_le_of_found found
  rw [← List.append_assoc]
  cases piece with
  | nil => exact absurd rfl longest.filled
  | cons first others =>
    have found' : longest? (first :: others ++ rest ++ '\n' :: below) =
        some (pattern.lexeme, length) := by
      refine longest?_line found (visible first rfl) fun later slash star => ?_
      subst slash
      exact closed later (congrArg ('/' :: ·) star)
    obtain ⟨pattern', classified, longest'⟩ := exists_longest_of_found found'
    rw [List.take_append_of_le_length inside, taken] at longest'
    have same : pattern = pattern' :=
      Pattern.eq_of_mem longest.declared longest'.declared longest.fits longest'.fits
    exact same ▸ longest'

section Kinds

variable {piece rest : List Char} {pattern : Pattern}

/-- A gap is not the slash of an open comment. -/
theorem Longest.closed_of_gap (longest : Longest (piece ++ rest) piece pattern)
    (skipped : pattern.lexeme = .gap) :
    ∀ others, piece ++ rest = '/' :: '*' :: others → blockCommentTail others ≠ none := by
  intro others same unclosed
  obtain ⟨length, found, _⟩ := longest.exists_found
  rw [same, skipped] at found
  simp [longest?, unclosed] at found

/-- Of an open comment the slash is the longest piece. -/
theorem Longest.eq_slash (longest : Longest (piece ++ rest) piece pattern) {others : List Char}
    (same : piece ++ rest = '/' :: '*' :: others) (unclosed : blockCommentTail others = none) :
    piece = ['/'] ∧ rest = '*' :: others := by
  obtain ⟨length, found, taken⟩ := longest.exists_found
  rw [same] at found taken
  simp only [longest?, unclosed, Option.some.injEq, Prod.mk.injEq] at found
  rw [← found.2] at taken
  obtain rfl : ['/'] = piece := taken
  exact ⟨rfl, (List.cons.inj same).2⟩

/-- No token begins with a blank. -/
theorem Longest.visible_of_token {kind : TokenKind}
    (longest : Longest (piece ++ rest) piece pattern) (classified : pattern.lexeme = .token kind) :
    ∀ first ∈ piece.head?, Text.isBlank first = false := by
  intro first begins
  rw [Bool.eq_false_iff]
  intro blank
  obtain ⟨length, found, _⟩ := longest.exists_found
  cases piece with
  | nil => simp at begins
  | cons char others =>
    obtain rfl : char = first := by simpa using begins
    rw [List.cons_append, longest?_blank blank, classified] at found
    simp at found

end Kinds

/-- No two neighbours of some pieces open a comment, whatever stands between or behind them: a piece
    that begins with a star does not follow a slash, and no slash is the last piece. -/
inductive NoComment : List Piece → Prop
  | done : NoComment []
  | other {piece : Piece} {pieces : List Piece} (other : piece.text ≠ "/")
      (later : NoComment pieces) : NoComment (piece :: pieces)
  | apart {piece next : Piece} {pieces : List Piece} (apart : next.text.toList.head? ≠ some '*')
      (later : NoComment (next :: pieces)) : NoComment (piece :: next :: pieces)

/-- Behind a piece the others open no comment either. -/
theorem NoComment.tail {piece : Piece} {pieces : List Piece} (plain : NoComment (piece :: pieces)) :
    NoComment pieces := by
  cases plain with
  | other _ later => exact later
  | apart _ later => exact later

namespace Lexed

/-- Blanks in front of a text have no part in its tokens. -/
theorem ofChars_blanks {blanks : List Char} (all : blanks.all Text.isBlank = true)
    (chars : List Char) (offset : Nat) :
    ofChars (blanks ++ chars) offset = ofChars chars (offset + utf8Length blanks) := by
  induction blanks generalizing offset with
  | nil => rfl
  | cons blank blanks inductionHypothesis =>
    simp only [List.all_cons, Bool.and_eq_true] at all
    rw [List.cons_append, ofChars_blank all.1, inductionHypothesis all.2, utf8Length_cons,
      Nat.add_assoc]

end Lexed

namespace Split

variable {chars : List Char} {offset : Nat} {tokens : List Token}

/-- What begins with a star begins with a token that does so. -/
theorem head_of_star {rest : List Char} (split : Split ('*' :: rest) offset (tokens.map .ok)) :
    ∃ first later, tokens = first :: later ∧ first.text.toList.head? = some '*' := by
  generalize shown : '*' :: rest = chars at split
  generalize given : tokens.map Except.ok = items at split
  cases split with
  | done => simp at shown
  | gap longest skipped =>
    have sign : longest? ('*' :: rest) = _ :=
      longest?_other nofun nofun nofun (by decide) (by decide)
    obtain ⟨length, found, _⟩ := longest.exists_found
    rw [skipped, ← shown, sign] at found
    split at found
    case h_1 => simp at found
    case h_2 => simp at found
  | token longest =>
    cases tokens with
    | nil => simp at given
    | cons first others =>
      obtain ⟨same, _⟩ := List.cons.inj given
      refine ⟨first, others, rfl, ?_⟩
      obtain rfl := Except.ok.inj same
      have front := congrArg List.head? shown
      rw [List.head?_append, Option.or_of_isSome (by simp [longest.filled])] at front
      simpa using front.symm
  | stuck => cases tokens <;> simp at given

/-- A text that opens no comment is read as far as the line feed behind it, and then the text below
    it is read. -/
theorem ofChars_line {items : List (Except LexError Token)} (split : Split chars offset items)
    (complete : items = tokens.map .ok) (plain : NoComment (tokens.map Token.piece))
    (below : List Char) :
    Lexed.ofChars (chars ++ '\n' :: below) offset =
      let later := Lexed.ofChars below (offset + utf8Length (chars ++ ['\n']))
      { later with tokens := tokens ++ later.tokens } := by
  induction split generalizing tokens with
  | done =>
    obtain rfl := List.map_eq_nil_iff.mp complete.symm
    exact Lexed.ofChars_blank (by decide) below _
  | @gap piece rest pattern offset items longest skipped _ inductionHypothesis =>
    have behind := inductionHypothesis complete plain
    have passed : Lexed.ofChars (piece ++ (rest ++ '\n' :: below)) offset =
        Lexed.ofChars (rest ++ '\n' :: below) (offset + utf8Length piece) := by
      rcases Pattern.lexical_or_gap longest.declared longest.fits with
        ⟨kind, classified, _⟩ | ⟨_, blank | comment⟩
      · rw [skipped] at classified
        exact absurd classified nofun
      · exact Lexed.ofChars_blanks (mem_blanks.mp blank).2 _ _
      · have slash : piece.head? = some '/' := by
          rcases comment with line | block
          · obtain ⟨_, rfl, _⟩ := mem_lineComment.mp line
            rfl
          · obtain ⟨_, rfl, _⟩ := mem_blockComment.mp block
            rfl
        have longer := longest.line (by simp [slash]; decide) (longest.closed_of_gap skipped) below
        exact Lexed.ofChars_skip piece (longer.read_gap skipped offset)
    rw [List.append_assoc, passed, behind]
    simp [Nat.add_assoc]
  | @token piece rest pattern kind offset items longest classified later inductionHypothesis =>
    cases tokens with
    | nil => simp at complete
    | cons first others =>
      obtain ⟨same, further⟩ := List.cons.inj complete
      obtain rfl := Except.ok.inj same
      have behind := inductionHypothesis further plain.tail
      have closed : ∀ chars, piece ++ rest = '/' :: '*' :: chars → blockCommentTail chars ≠ none := by
        intro chars same unclosed
        obtain ⟨rfl, rfl⟩ := longest.eq_slash same unclosed
        obtain ⟨next, _, rfl, star⟩ := head_of_star (further ▸ later)
        cases plain with
        | other other => exact other rfl
        | apart apart => exact apart star
      have longer := longest.line (longest.visible_of_token classified) closed below
      rw [List.append_assoc, longer.ofChars_token classified, behind]
      simp [Nat.add_assoc]
  | stuck => cases tokens <;> simp at complete

end Split

end ShaderSource
