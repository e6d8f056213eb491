import ShaderSource.Proofs.Grammar.Repetition
import ShaderSource.Proofs.Token.Longest
import ShaderSource.Proofs.Tree.Opening
import ShaderSource.Grammar.Production

/-!
# What the words of a rule read

A rule asks for the text of a word, a bracket or an operator, and not for its
class. The pieces before it are lexical, so the text tells the class: each of
these small parts reads exactly the piece that a tree has in its place.
-/

namespace ShaderSource

/-- The word that is read from a text has this text as its spelling. -/
theorem spelling_of_readSpelling {α : Type} {expected text : String} {spelling : α → String}
    {all : List α} {word : α} (read : readSpelling expected spelling all text = .ok word) :
    spelling word = text := by
  unfold readSpelling at read
  split at read
  case h_1 found known =>
    obtain rfl := Except.ok.inj read
    simpa using List.find?_some known
  case h_2 => simp at read

/-- A token of a source text with the text of a lexical piece shows this piece. -/
theorem Token.piece_eq {token : Token} {piece : Piece} (shown : token.piece.isLexical = true)
    (lexical : piece.isLexical = true) (fits : hasText piece.text token = true) :
    token.piece = piece :=
  Piece.eq_of_text shown lexical (eq_of_beq fits)

namespace Production

open Attempt

variable {setting : Setting}

/-- A token with the text of a lexical piece is this piece. -/
theorem reads_word (piece : Piece) (lexical : piece.isLexical = true) :
    (word piece.text).Reads setting fun _ consumed => consumed = [piece] := by
  apply reads_token.imp
  intro token consumed met
  obtain ⟨fits, shown, rfl⟩ := met
  rw [Token.piece_eq shown lexical fits]

/-- A name that is read is one piece, and one that can be a name. -/
theorem reads_nameText :
    nameText.Reads setting fun name consumed =>
      isNameText name = true ∧ consumed = [.word name] := by
  refine reads_token.bind fun shown taken met => Reads.pure ?_
  obtain ⟨⟨kind, text, span⟩, fits, lexical, rfl⟩ := shown, met
  simp only [Token.isName, Bool.and_eq_true, beq_iff_eq, Bool.not_eq_true'] at fits
  obtain ⟨rfl, free⟩ := fits
  have written : Lexeme.identifierText text.toList = true := lexical
  exact ⟨by simp [isNameText, free, written], rfl⟩

/-- The `;` of a statement is read unless the statement is a clause. -/
theorem reads_endStatement :
    endStatement.Reads setting fun _ consumed =>
      consumed = Piece.statementEnd (!setting.flags.contains .simple) := by
  apply reads_flags.bind
  intro flags taken met
  obtain ⟨rfl, rfl⟩ := met
  refine reads_tokenIf.bind fun _ taken met => Reads.pure ?_
  cases clause : setting.flags.contains .simple with
  | true => simpa [clause, Piece.statementEnd] using met
  | false =>
    simp only [clause, Bool.not_false, if_true] at met
    obtain ⟨token, fits, shown, rfl⟩ := met
    have semicolon : Piece.semicolon.isLexical = true := by decide
    rw [Token.piece_eq shown semicolon fits]
    rfl

/-- A token whose text is read as the spelling of a word shows the piece of the word. -/
theorem reads_spelling {α : Type} {expected : String} {spelling : α → String} {all : List α}
    {pattern : Token → Bool} {piece : α → Piece} (lexical : ∀ word, (piece word).isLexical = true)
    (shows : ∀ word, (piece word).text = spelling word) :
    (token pattern >>= fun shown => spelled (readSpelling expected spelling all shown.text)).Reads
      setting fun word consumed => consumed = [piece word] := by
  apply reads_token.bind
  intro shown taken met
  obtain ⟨_, lexical', rfl⟩ := met
  apply reads_spelled.imp
  intro word consumed met
  obtain ⟨read, rfl⟩ := met
  have same : shown.text = (piece word).text :=
    (spelling_of_readSpelling read).symm.trans (shows word).symm
  rw [Piece.eq_of_text lexical' (lexical word) same]
  rfl

/-- An assignment operator that is read is its piece. -/
theorem reads_assignOp :
    assignOp.Reads setting fun op consumed => consumed = [op.piece] :=
  reads_spelling (fun op => op.plain_piece.lexical) fun _ => rfl

/-- The operator of a step that is read is its piece. -/
theorem reads_crementOp :
    crementOp.Reads setting fun op consumed => consumed = [op.piece] :=
  reads_spelling (fun op => op.plain_piece.lexical) fun _ => rfl

/-- A unary operator that is read is its piece. -/
theorem reads_unaryOp {pattern : Token → Bool} :
    (token pattern >>= fun shown => spelled (UnaryOp.ofSpelling shown.text)).Reads setting
      fun op consumed => consumed = [op.piece] :=
  reads_spelling (fun op => op.plain_piece.lexical) fun _ => rfl

/-- A binary operator that is read is its piece. -/
theorem reads_binaryOp {pattern : Token → Bool} :
    (token pattern >>= fun shown => spelled (BinaryOp.ofSpelling shown.text)).Reads setting
      fun op consumed => consumed = [op.piece] :=
  reads_spelling (fun op => op.plain_piece.lexical) fun _ => rfl

/-- A qualifier that is read is its word, and a missing one is no piece. -/
theorem reads_readQualifier :
    readQualifier.Reads setting fun qualifier consumed =>
      consumed = Qualifier.pieces qualifier := by
  apply reads_token?.bind
  intro shown taken met
  cases shown with
  | none =>
    obtain rfl := met.2 rfl
    exact Reads.pure rfl
  | some shown =>
    obtain ⟨_, lexical, rfl⟩ := met.1 shown rfl
    apply reads_spelled.map
    intro qualifier consumed met
    obtain ⟨read, rfl⟩ := met
    rw [Piece.eq_of_text lexical qualifier.plain_piece.lexical (spelling_of_readSpelling read).symm]
    rfl

/-- The comma before an item of a list is read unless the item is the first one. -/
theorem reads_separator {rounds : Nat} :
    (separator rounds).Reads setting fun _ consumed =>
      consumed = if 0 < rounds then [Piece.comma] else [] := by
  refine reads_tokenIf.bind fun _ taken met => Reads.pure ?_
  by_cases later : 0 < rounds
  · simp only [later, decide_true, if_true] at met
    obtain ⟨token, fits, shown, rfl⟩ := met
    have comma : Piece.comma.isLexical = true := by decide
    rw [Token.piece_eq shown comma fits]
    simp [later]
  · simpa [later] using met

/-- A word is taken whatever follows it. -/
theorem takes_word (piece : Piece) {later : List Piece} :
    (word piece.text).Takes setting [piece] later fun _ => True := by
  refine (takes_token fun shown same => ?_).imp fun _ _ => trivial
  have text : shown.text = piece.text := congrArg Piece.text same
  simp [Token.hasText, text]

/-- A word is rejected where the next piece has another text. -/
theorem rejects_word {text : String} {pieces : List Piece}
    (other : ∀ piece, pieces.head? = some piece → (piece.text == text) = false) :
    (word text).Rejects setting pieces :=
  rejects_token fun shown same => other shown.piece same

/-- What can be a name is read as one. -/
theorem takes_nameText {name : String} (named : isNameText name = true) {later : List Piece} :
    nameText.Takes setting [.word name] later fun read => read = name := by
  have free : isReserved name = false := by
    simp only [isNameText, Bool.and_eq_true, Bool.not_eq_true'] at named
    exact named.2
  refine (takes_token fun shown same => ?_).close fun shown same => Takes.pure ?_
  · obtain ⟨kind, text, span⟩ := shown
    obtain ⟨rfl, rfl⟩ := Piece.mk.inj same
    simp [Token.isName, free]
  · exact congrArg Piece.text same

/-- The piece of a word is taken where its spelling is read. -/
theorem takes_spelling {α : Type} {expected : String} {spelling : α → String} {all : List α}
    {pattern : Token → Bool} {piece : Piece} {word : α} {later : List Piece}
    (fits : ∀ shown : Token, shown.piece = piece → pattern shown = true)
    (known : readSpelling expected spelling all piece.text = .ok word) :
    (token pattern >>= fun shown => spelled (readSpelling expected spelling all shown.text)).Takes
      setting [piece] later fun read => read = word := by
  refine (takes_token fits).close fun shown same => ?_
  have text : shown.text = piece.text := congrArg Piece.text same
  exact takes_spelled (by rw [text, known])

/-- An assignment operator is read from its piece. -/
theorem takes_assignOp (op : AssignOp) {later : List Piece} :
    assignOp.Takes setting [op.piece] later fun read => read = op := by
  refine takes_spelling (fun shown same => ?_) op.ofSpelling_spelling
  have kind : shown.kind = .assign := congrArg Piece.kind same
  simp [Token.hasKind, kind]

/-- The operator of a step is read from its piece. -/
theorem takes_crementOp (op : CrementOp) {later : List Piece} :
    crementOp.Takes setting [op.piece] later fun read => read = op := by
  refine takes_spelling (fun shown same => ?_) op.ofSpelling_spelling
  have kind : shown.kind = .crement := congrArg Piece.kind same
  simp [Token.hasKind, kind]

/-- A statement that is no clause takes its `;`. -/
theorem takes_endStatement {later : List Piece} {closed : Bool}
    (ends : (!setting.flags.contains .simple) = closed) :
    endStatement.Takes setting (Piece.statementEnd closed) later fun _ => True := by
  apply takes_flags.skip
  intro flags shown
  subst shown
  dsimp only
  rw [ends]
  cases closed with
  | false => exact takes_tokenIf_false.skip fun _ _ => Takes.pure trivial
  | true =>
    refine (takes_tokenIf fun shown same => ?_).close fun _ _ => Takes.pure trivial
    have text : shown.text = ";" := congrArg Piece.text same
    simp [Token.hasText, text]

/-- A statement that is no clause ends before nothing but its `;`. -/
theorem rejects_endStatement {piece : Piece} {rest : List Piece}
    (closed : setting.flags.contains .simple = false) (other : piece.text ≠ ";") :
    endStatement.Rejects setting (piece :: rest) := by
  refine takes_flags.skip_rejects fun shown same => ?_
  have ends : shown.contains .simple = false := same ▸ closed
  simp only [ends, Bool.not_false]
  refine (rejects_tokenIf fun token shown => ?_).bind
  have text : token.text = piece.text := congrArg Piece.text (Option.some.inj shown).symm
  rw [Token.hasText, text, beq_eq_false_iff_ne]
  exact other

end Production

end ShaderSource
