import ShaderSource.Proofs.RoundTrip
import ShaderSource.Proofs.Tree.Comments

/-!
# Programs one below the other

Two programs that are written one below the other are read as the statements of
the first and then those of the second. The line feed between them ends the last
token and the last comment of the first, which cannot have opened another one.
So the tokens of both are the tokens of the whole, and a program is read back
from its pieces.
-/

namespace ShaderSource

/-- The place of a text has no part in the pieces that are read from it. -/
theorem Lexed.ofChars_moved (chars : List Char) (offset place : Nat) :
    (ofChars chars place).tokens.map Token.piece = (ofChars chars offset).tokens.map Token.piece ∧
      (ofChars chars place).remainder = (ofChars chars offset).remainder := by
  obtain ⟨items, split⟩ := Split.exists_items chars offset
  induction split generalizing place with
  | done => simp only [ofChars_nil, List.map_nil, and_self]
  | @gap piece rest _ offset _ longest skipped _ inductionHypothesis =>
    rw [ofChars_skip piece (longest.read_gap skipped place),
      ofChars_skip piece (longest.read_gap skipped offset)]
    exact inductionHypothesis _
  | token longest classified _ inductionHypothesis =>
    rw [longest.ofChars_token classified, longest.ofChars_token classified]
    obtain ⟨shown, remains⟩ := inductionHypothesis (place + utf8Length _)
    exact ⟨congrArg (_ :: ·) shown, remains⟩
  | @stuck found rest offset unfit =>
    rw [ofChars, ofChars.eq_def _ offset, unfit.read place, unfit.read offset]
    exact ⟨rfl, rfl⟩

/-- A text that opens no comment is read as a whole with another one below it, and the pieces of
    both are read one after the other. -/
theorem tokens?_lines {first second : String} {tokens later : List Token}
    (complete : (tokenize first).tokens? = .ok tokens)
    (plain : NoComment (tokens.map Token.piece))
    (further : (tokenize second).tokens? = .ok later) :
    ∃ joined, (tokenize (first ++ "\n" ++ second)).tokens? = .ok joined ∧
      joined.map Token.piece = tokens.map Token.piece ++ later.map Token.piece := by
  have items : Lexer.items ⟨first.toList, 0, false⟩ = tokens.map .ok := by
    rw [Lexer.items_ofChars, Lexed.items]
    unfold tokenize at complete
    rw [complete, Lexed.tokens_of_ok complete, List.append_nil]
  have text : (first ++ "\n" ++ second).toList = first.toList ++ '\n' :: second.toList := by simp
  have whole := (Split.iff_items_eq.mp items).ofChars_line rfl plain second.toList
  rw [← text] at whole
  change tokenize _ = _ at whole
  obtain ⟨remains, rfl⟩ := Lexed.tokens?_eq_ok_iff.mp further
  obtain ⟨shown, moved⟩ := Lexed.ofChars_moved second.toList 0
    (0 + utf8Length (first.toList ++ ['\n']))
  refine ⟨_, Lexed.tokens?_eq_ok_iff.mpr ⟨?_, rfl⟩, ?_⟩
  · rw [whole]
    exact moved.trans remains
  · rw [whole, List.map_append]
    exact congrArg _ shown

/-- Two programs one below the other are the program of the statements of both. -/
theorem compile_lines {first second : String} {nodes others : List Node}
    (accepted : compile first = .ok nodes) (further : compile second = .ok others) :
    compile (first ++ "\n" ++ second) = .ok (nodes ++ others) := by
  obtain ⟨tokens, complete, shown, shaped, nested⟩ := exists_of_compile accepted
  obtain ⟨later, complete', shown', shaped', nested'⟩ := exists_of_compile further
  obtain ⟨joined, whole, pieces⟩ :=
    tokens?_lines complete (shown ▸ shaped.noComment) complete'
  have within : NestedProgram deepestLevel (nodes ++ others) := by
    refine ⟨nested.1, Node.listWithin_iff.mpr (List.forall_mem_append.mpr ?_)⟩
    exact ⟨Node.listWithin_iff.mp nested.2, Node.listWithin_iff.mp nested'.2⟩
  have both : joined.map Token.piece = programPieces (nodes ++ others) := by
    rw [pieces, shown, shown', programPieces, programPieces, programPieces, List.flatMap_append]
  exact Grammar.compile_eq_ok_iff.mpr
    ⟨joined, whole, both, List.forall_mem_append.mpr ⟨shaped, shaped'⟩, within⟩

/-- The first program ends in a comment without a line feed, and the slash of its division stands
    before another one. The second begins with a parenthesis, which does not call anything. -/
theorem compile_lines_comment :
    ∃ nodes others, compile "if(x)\x7by=a/ /* b */c;\x7d// else" = .ok nodes ∧
      compile "(-x)*y; /* end */" = .ok others ∧
        compile ("if(x)\x7by=a/ /* b */c;\x7d// else" ++ "\n" ++ "(-x)*y; /* end */") =
          .ok (nodes ++ others) := by
  have accepted : compile "if(x)\x7by=a/ /* b */c;\x7d// else" = .ok [.conditional (.reference "x")
      [.assignment "y" .assign (.binary [.div] [.reference "a", .reference "c"])] [] none] := by
    decide +kernel
  have further : compile "(-x)*y; /* end */" = .ok [.expression (.binary [.mul]
      [.parenthesized (.unary .minus (.reference "x")), .reference "y"])] := by
    decide +kernel
  exact ⟨_, _, accepted, further, compile_lines accepted further⟩

end ShaderSource
