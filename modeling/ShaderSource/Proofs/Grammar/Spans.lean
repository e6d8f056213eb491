import ShaderSource.Proofs.Grammar.Parallel

/-!
# Where the tokens stand decides nothing

Two lists of tokens that show the same pieces are read alike. Both give the same
nodes, or both fail at the same token, and the failures say the same but for the
places that they name.
-/

namespace ShaderSource

/-- Two failures of a grammar that say the same, at whatever places. -/
inductive ParseError.Alike : ParseError → ParseError → Prop
  | tokens {error other : SyntaxError} (flags : error.flags = other.flags)
      (expected : error.expected = other.expected)
      (last : error.last.map Token.piece = other.last.map Token.piece)
      (remainder : error.remainder = other.remainder) : Alike (.tokens error) (.tokens other)
  | depth {error other : DepthError} (limit : error.limit = other.limit) :
      Alike (.depth error) (.depth other)

/-- The report names the last token by its piece. -/
theorem SyntaxError.message_eq (error : SyntaxError) :
    error.message = "failed to process tokens: `" ++ error.remainder ++ "` (flags: " ++
      error.flags.display ++ ", expected: " ++
      (error.expected.elim "end of input" fun text => "`" ++ text ++ "`") ++ ", last token: " ++
      ((error.last.map Token.piece).elim "none" fun piece =>
        piece.kind.name ++ "<" ++ piece.text ++ ">") ++ ")" := by
  obtain ⟨flags, expected, last, remainder, span⟩ := error
  cases expected with
  | none => cases last <;> rfl
  | some => cases last <;> rfl

/-- Failures that say the same are reported in the same words. -/
theorem ParseError.Alike.message {error other : ParseError} (alike : error.Alike other) :
    error.message = other.message := by
  cases alike with
  | tokens flags expected last remainder =>
    simp only [ParseError.message, SyntaxError.message_eq, flags, expected, last, remainder]
  | @depth error other same =>
    obtain ⟨limit, _⟩ := error
    obtain rfl : limit = other.limit := same
    rfl

/-- Two places around tokens with the same pieces. -/
structure Place.Alike (place other : Place) : Prop where
  previous : place.previous.map Token.piece = other.previous.map Token.piece
  pieces : place.pieces = other.pieces

namespace Place.Alike

variable {place other : Place}

/-- Places that are alike but for spans stay so when both move on. -/
theorem advance (alike : place.Alike other) : place.advance.Alike other.advance := by
  obtain ⟨index, previous, rest⟩ := place
  obtain ⟨index', previous', rest'⟩ := other
  have pieces : rest.map Token.piece = rest'.map Token.piece := alike.pieces
  cases rest with
  | nil =>
    obtain rfl := List.map_eq_nil_iff.mp pieces.symm
    exact alike
  | cons token others =>
    obtain ⟨token', others', rfl, first, later⟩ := List.map_eq_cons_iff.mp pieces.symm
    exact ⟨congrArg some first.symm, later.symm⟩

/-- At alike places the same failure is found. -/
theorem unexpected (alike : place.Alike other) (flags : Flags) (expected : Option String) :
    ParseError.Alike (.tokens (place.unexpected flags expected))
      (.tokens (other.unexpected flags expected)) := by
  have texts : ∀ place : Place, place.rest.map Token.text = place.pieces.map Piece.text :=
    fun place => by simp [Place.pieces, Function.comp_def, Token.piece]
  refine .tokens rfl rfl alike.previous ?_
  simp only [Place.unexpected, texts, alike.pieces]

end Place.Alike

/-- The comparison with a reading of tokens that stand at other places. The first reading has
    no failures alone. -/
def Comparison.spans : Comparison where
  places := Place.Alike
  failures := ParseError.Alike
  excused _ := False
  pieces := Place.Alike.pieces
  advance := Place.Alike.advance
  unexpected := Place.Alike.unexpected

namespace Grammar.Steady

variable {grammar : Grammar}

/-- Two lists of tokens with the same pieces are read as the same nodes, or with failures that
    say the same. -/
theorem parseProgram_spans (steady : grammar.Steady) {tokens other : List Token}
    (same : tokens.map Token.piece = other.map Token.piece) :
    Comparison.spans.Results Eq (grammar.parseProgram tokens) (grammar.parseProgram other) := by
  have front : (Place.ofTokens tokens 0).Alike (.ofTokens other 0) := ⟨rfl, same⟩
  have wanting : ∀ place other : Place, place.Alike other →
      ParseError.Alike (.depth ⟨maxDepth, place.span⟩) (.depth ⟨maxDepth, other.span⟩) :=
    fun _ _ _ => .depth rfl
  have readers : Comparison.spans.Readers grammar.topReader grammar.topReader :=
    steady.readers wanting (maxDepth + 1)
  have list := Comparison.results_readList readers .root none front
  simp only [parseProgram, parseAll]
  generalize readList grammar.topReader .root none (.ofTokens tokens 0) = result at list ⊢
  generalize readList grammar.topReader .root none (.ofTokens other 0) = result' at list ⊢
  cases list with
  | read both => exact .read both.1
  | failed alike => exact .failed alike
  | excused alone => exact alone.elim

end Grammar.Steady

end ShaderSource
