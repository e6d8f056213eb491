import ShaderSource.Proofs.Token.Typeset

/-!
# Texts that are set apart

Some texts are set apart by blanks and comments. Where they are the texts of
lexical pieces, these are found again, whatever stands between them. A blank
ends every piece, so only what stands behind a piece has to begin with one. No
piece is lost in a comment, since a comment begins apart from the piece before
it and ends before the next one.
-/

namespace ShaderSource

open Lexeme (longest? runLength runLength_append blockCommentTail)

/-- Blanks, closed block comments, and line comments with the line feed that ends them. -/
inductive Separator : List Char → Prop
  | done : Separator []
  | blank {char : Char} {later : List Char} (gap : Text.isBlank char = true)
      (separator : Separator later) : Separator (char :: later)
  | block {body later : List Char} (unclosed : ¬ ['*', '/'] <:+: body)
      (separator : Separator later) :
      Separator ('/' :: '*' :: (body ++ '*' :: '/' :: later))
  | line {text later : List Char} (single : '\n' ∉ text) (separator : Separator later) :
      Separator ('/' :: '/' :: (text ++ '\n' :: later))

/-- The separators behind some texts. Each begins with a blank, but the last may be empty. -/
inductive Separators : List (List Char) → Prop
  | done : Separators []
  | last : Separators [[]]
  | next {char : Char} {gap : List Char} {gaps : List (List Char)}
      (begins : Text.isBlank char = true) (separator : Separator gap)
      (later : Separators gaps) : Separators ((char :: gap) :: gaps)

/-- What stands before, between and behind some texts. -/
structure Spacing (texts : List String) where
  front : List Char
  /-- The separators behind the texts, one for each. -/
  behind : List (List Char)
  length : behind.length = texts.length
  separator : Separator front
  separators : Separators behind

/-- Texts that are followed by a separator each. -/
def spaced (texts : List String) (gaps : List (List Char)) : List Char :=
  (texts.zip gaps).flatMap fun (text, gap) => text.toList ++ gap

/-- The texts with what stands around them. -/
def Spacing.source {texts : List String} (spacing : Spacing texts) : String :=
  String.ofList (spacing.front ++ spaced texts spacing.behind)

/-- A block comment goes up to its first closing. -/
theorem Lexeme.blockCommentTail_append {body : List Char} (unclosed : ¬ ['*', '/'] <:+: body)
    (later : List Char) :
    blockCommentTail (body ++ '*' :: '/' :: later) = some (body.length + 2) := by
  induction body with
  | nil => rfl
  | cons char body inductionHypothesis =>
    have inner : ¬ ['*', '/'] <:+: body := fun closes =>
      unclosed (closes.trans (List.suffix_cons char body).isInfix)
    rw [List.cons_append, blockCommentTail, inductionHypothesis inner]
    · simp [Nat.add_right_comm]
    · rintro others rfl same
      cases body with
      | nil => simp at same
      | cons next body =>
        -- A star and a slash in the body would close the comment earlier.
        obtain ⟨rfl, _⟩ := List.cons.inj same
        exact unclosed ⟨[], body, rfl⟩

/-- A gap at the front of a text is skipped. -/
theorem Lexed.ofChars_gap {first : Char} {others chars : List Char}
    (found : longest? (first :: others ++ chars) = some (.gap, others.length + 1)) (offset : Nat) :
    ofChars (first :: others ++ chars) offset =
      ofChars chars (offset + utf8Length (first :: others)) := by
  apply ofChars_skip
  rw [List.cons_append] at found ⊢
  rw [Lexer.read, found]
  simp

/-- A separator in front of a text has no part in the tokens of the text. -/
theorem Separator.ofChars {gap : List Char} (separator : Separator gap) (chars : List Char)
    (offset : Nat) :
    Lexed.ofChars (gap ++ chars) offset = Lexed.ofChars chars (offset + utf8Length gap) := by
  induction separator generalizing offset with
  | done => rfl
  | blank gap _ inductionHypothesis =>
    rw [List.cons_append, Lexed.ofChars_blank gap, inductionHypothesis, utf8Length_cons,
      Nat.add_assoc]
  | @block body later unclosed _ inductionHypothesis =>
    have found : longest? ('/' :: '*' :: (body ++ ['*', '/']) ++ (later ++ chars)) =
        some (.gap, ('*' :: (body ++ ['*', '/'])).length + 1) := by
      simp [longest?, Lexeme.blockCommentTail_append unclosed]
      omega
    have skipped := Lexed.ofChars_gap found offset
    rw [inductionHypothesis] at skipped
    simpa [Nat.add_assoc] using skipped
  | @line text later single _ inductionHypothesis =>
    have found : longest? ('/' :: '/' :: text ++ ('\n' :: (later ++ chars))) =
        some (.gap, ('/' :: text).length + 1) := by
      have inside : text.all (· != '\n') = true := by
        rw [List.all_eq_true]
        rintro char member
        simpa using fun feed : char = '\n' => single (feed ▸ member)
      have run : runLength (· != '\n') (text ++ '\n' :: (later ++ chars)) = text.length :=
        runLength_append inside rfl
      simp [longest?, run]
      omega
    -- The comment ends before its line feed, which is skipped as a blank.
    have skipped := Lexed.ofChars_gap found offset
    have feed : Text.isBlank '\n' = true := by decide
    rw [Lexed.ofChars_blank feed, inductionHypothesis] at skipped
    simpa [Nat.add_assoc] using skipped

/-- Lexical pieces that are set apart are found again, and nothing else is. -/
theorem Separators.ofChars {gaps : List (List Char)} (separators : Separators gaps)
    {pieces : List Piece} (length : gaps.length = pieces.length)
    (lexical : ∀ piece ∈ pieces, piece.isLexical = true) (offset : Nat) :
    (Lexed.ofChars (spaced (pieces.map Piece.text) gaps) offset).remainder = "" ∧
      (Lexed.ofChars (spaced (pieces.map Piece.text) gaps) offset).tokens.map Token.piece =
        pieces := by
  induction separators generalizing pieces offset with
  | done =>
    obtain rfl := List.length_eq_zero_iff.mp length.symm
    exact Typeset.done.ofChars offset
  | last =>
    obtain ⟨piece, rfl⟩ := List.length_eq_one_iff.mp length.symm
    obtain ⟨token, later, split, rfl⟩ :=
      Lexed.ofChars_piece (lexical piece (by simp)) piece.endsBefore_nil offset
    obtain ⟨complete, none⟩ := Typeset.done.ofChars later
    have alone : spaced ([token.piece].map Piece.text) [[]] = token.piece.text.toList ++ [] := by
      simp [spaced]
    rw [alone, split]
    exact ⟨complete, by rw [List.map_cons, none]⟩
  | @next char gap gaps begins separator _ inductionHypothesis =>
    obtain ⟨piece, pieces, rfl⟩ := List.exists_cons_of_length_eq_add_one length.symm
    rw [List.forall_mem_cons] at lexical
    have parts : spaced ((piece :: pieces).map Piece.text) ((char :: gap) :: gaps) =
        piece.text.toList ++ char :: (gap ++ spaced (pieces.map Piece.text) gaps) := by
      simp [spaced]
    obtain ⟨token, later, split, rfl⟩ :=
      Lexed.ofChars_piece lexical.1 (piece.endsBefore_blank begins _) offset
    rw [parts, split, Lexed.ofChars_blank begins, separator.ofChars]
    obtain ⟨complete, same⟩ := inductionHypothesis (Nat.succ.inj length) lexical.2 _
    exact ⟨complete, by rw [List.map_cons, same]⟩

/-- Some lexical pieces are found again in their texts, whatever stands around them. -/
theorem Spacing.tokens? {texts : List String} (spacing : Spacing texts) {pieces : List Piece}
    (shown : pieces.map Piece.text = texts)
    (lexical : ∀ piece ∈ pieces, piece.isLexical = true) :
    ∃ tokens, (tokenize spacing.source).tokens? = .ok tokens ∧ tokens.map Token.piece = pieces := by
  subst shown
  have length : spacing.behind.length = pieces.length := by simp [spacing.length]
  have text : spacing.source.toList =
      spacing.front ++ spaced (pieces.map Piece.text) spacing.behind := String.toList_ofList
  obtain ⟨complete, same⟩ :=
    spacing.separators.ofChars length lexical (0 + utf8Length spacing.front)
  rw [← spacing.separator.ofChars, ← text] at complete same
  exact ⟨(tokenize spacing.source).tokens, Lexed.tokens?_of_remainder complete, same⟩

end ShaderSource
