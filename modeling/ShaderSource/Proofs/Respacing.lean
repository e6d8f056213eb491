import ShaderSource.Proofs.Grammar.Spans
import ShaderSource.Proofs.RoundTrip
import ShaderSource.Proofs.Token.Spacing

/-!
# Layout decides nothing

The texts of the tokens of a source can be set apart by any blanks and comments.
They are the same tokens again, so the new source is compiled like the first
one: to the same nodes, or to a failure that says the same at another place.
-/

namespace ShaderSource

/-- A source that is read completely can be laid out anew. Its tokens have the same classes and
    texts again. Both sources are compiled to the same nodes, or both fail, and the failures
    differ only in the places that they name. -/
theorem compile_respaced {source : String} {tokens : List Token}
    (complete : (tokenize source).tokens? = .ok tokens)
    (spacing : Spacing (tokens.map Token.text)) :
    (∃ again, (tokenize spacing.source).tokens? = .ok again ∧
      again.map Token.piece = tokens.map Token.piece) ∧
      ((∃ nodes, compile source = .ok nodes ∧ compile spacing.source = .ok nodes) ∨
        ∃ error other, compile source = .error error ∧ compile spacing.source = .error other ∧
          error.Alike other) := by
  have lexical : ∀ piece ∈ tokens.map Token.piece, piece.isLexical = true :=
    List.forall_mem_map.mpr (lexical_of_tokens? complete)
  have shown : (tokens.map Token.piece).map Piece.text = tokens.map Token.text := by
    simp [Token.piece]
  obtain ⟨again, complete', same⟩ := spacing.tokens? shown lexical
  refine ⟨⟨again, complete', same⟩, ?_⟩
  rw [compile_of_tokens? complete, compile_of_tokens? complete']
  have steady : Grammar.glsl.Steady := Grammar.Arranged.steady
  have results := steady.parseProgram_spans same.symm
  generalize Grammar.glsl.parseProgram tokens = result at results ⊢
  generalize Grammar.glsl.parseProgram again = result' at results ⊢
  cases results with
  | read alike => exact .inl ⟨_, rfl, alike ▸ rfl⟩
  | failed alike => exact .inr ⟨_, _, rfl, rfl, alike⟩
  | excused alone => exact alone.elim

/-- The quoted blanks are kept, and the slash and the star of a comment that is never closed are
    two tokens, which may stand apart. -/
theorem compile_respaced_unclosed :
    ∃ tokens, (tokenize "x=\"a  b\";/*").tokens? = .ok tokens ∧
      (∃ again, (tokenize "// a\nx = \"a  b\"\t/* = */; /\n*").tokens? = .ok again ∧
        again.map Token.piece = tokens.map Token.piece) ∧
      ∃ error other, compile "x=\"a  b\";/*" = .error error ∧
        compile "// a\nx = \"a  b\"\t/* = */; /\n*" = .error other ∧ error.Alike other := by
  have complete : (tokenize "x=\"a  b\";/*").tokens? = .ok
      [⟨.identifier, "x", ⟨0, 1⟩⟩, ⟨.assign, "=", ⟨1, 2⟩⟩, ⟨.string, "\"a  b\"", ⟨2, 8⟩⟩,
        ⟨.marker, ";", ⟨8, 9⟩⟩, ⟨.operator, "/", ⟨9, 10⟩⟩, ⟨.operator, "*", ⟨10, 11⟩⟩] := by
    decide +kernel
  have failed : compile "x=\"a  b\";/*" =
      .error (.tokens ⟨.root, none, none, "x = \"a  b\" ; / *", ⟨0, 11⟩⟩) := by
    decide +kernel
  have title : Separator "// a\n".toList := @Separator.line [' ', 'a'] [] (by decide) .done
  have comment : Separator "/* = */".toList :=
    @Separator.block [' ', '=', ' '] [] (by decide) .done
  have blank : Text.isBlank ' ' = true := by decide
  have tab : Text.isBlank '\t' = true := by decide
  have feed : Text.isBlank '\n' = true := by decide
  obtain ⟨spacing, text⟩ : ∃ spacing : Spacing ["x", "=", "\"a  b\"", ";", "/", "*"],
      spacing.source = "// a\nx = \"a  b\"\t/* = */; /\n*" := by
    refine ⟨⟨"// a\n".toList, [[' '], [' '], "\t/* = */".toList, [' '], ['\n'], []], rfl, title,
      .next blank .done (.next blank .done (.next tab comment (.next blank .done
        (.next feed .done .last))))⟩, ?_⟩
    rfl
  obtain ⟨again, ⟨_, accepted, _⟩ | failures⟩ := compile_respaced complete spacing
  · rw [failed] at accepted
    exact absurd accepted nofun
  · exact ⟨_, complete, text ▸ again, text ▸ failures⟩

end ShaderSource
