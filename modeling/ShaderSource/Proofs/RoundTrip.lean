import ShaderSource.Proofs.Grammar.Completeness
import ShaderSource.Proofs.Tree.Printable
import ShaderSource.Tree.Equality

/-!
# Reading and writing programs

The reader accepts exactly the texts of programs of the right shape that are not
nested too deeply, up to layout: what it returns has this shape and nesting, and
the printed text of every such program is read back as the same program. A
printed text has the tokens of its program, so printing what was read keeps
every token of the source and changes nothing but the layout.
-/

namespace ShaderSource

/-- The tokens of a complete text are all that were read. -/
theorem Lexed.tokens_of_ok {lexed : Lexed} {tokens : List Token}
    (complete : lexed.tokens? = .ok tokens) : lexed.tokens = tokens := by
  unfold Lexed.tokens? at complete
  split at complete
  case h_1 => exact Except.ok.inj complete
  case h_2 => simp at complete

/-- The tokens of a text that is read completely are lexical. -/
theorem lexical_of_tokens? {source : String} {tokens : List Token}
    (complete : (tokenize source).tokens? = .ok tokens) :
    ∀ token ∈ tokens, token.piece.isLexical = true := by
  rw [← Lexed.tokens_of_ok complete]
  exact Lexed.ofChars_lexical source.toList 0

/-- A text that is read completely is compiled from its tokens. -/
theorem compile_of_tokens? {source : String} {tokens : List Token}
    (complete : (tokenize source).tokens? = .ok tokens) :
    compile source = Grammar.glsl.parseProgram tokens := by
  unfold compile Grammar.compile
  rw [complete]

/-- A text is compiled to a program exactly if it is read completely, its tokens show the pieces
    of the program, and the program has the right shape and nesting. The rules may stand in any
    fitting order. -/
theorem Grammar.compile_eq_ok_iff {grammar : Grammar} [grammar.Arranged] {source : String}
    {nodes : List Node} :
    grammar.compile source = .ok nodes ↔
      ∃ tokens, (tokenize source).tokens? = .ok tokens ∧
        tokens.map Token.piece = programPieces nodes ∧ ShapedProgram nodes ∧
          NestedProgram deepestLevel nodes := by
  unfold compile
  cases complete : (tokenize source).tokens? with
  | error error => simp
  | ok tokens =>
    constructor
    · intro accepted
      exact ⟨tokens, rfl, parseProgram_sound (lexical_of_tokens? complete) accepted⟩
    · rintro ⟨_, same, shown, shaped, nested⟩
      obtain rfl := Except.ok.inj same
      exact parseProgram_complete shaped nested shown

/-- A text that is compiled is read completely, and its tokens show the pieces of what it is
    compiled to. -/
theorem exists_of_compile {source : String} {nodes : List Node}
    (accepted : compile source = .ok nodes) :
    ∃ tokens, (tokenize source).tokens? = .ok tokens ∧
      tokens.map Token.piece = programPieces nodes ∧ ShapedProgram nodes ∧
        NestedProgram deepestLevel nodes :=
  Grammar.compile_eq_ok_iff.mp accepted

namespace ShapedProgram

variable {nodes : List Node}

/-- A program that is nested within the limit is compiled from its printed text. -/
theorem compile_printed (shaped : ShapedProgram nodes) (nested : NestedProgram deepestLevel nodes) :
    compile (renderProgram nodes) = .ok nodes := by
  obtain ⟨tokens, complete, shown⟩ := shaped.tokens?
  rw [compile_of_tokens? complete]
  exact Grammar.parseProgram_complete shaped nested shown

/-- The printed text of a program that is nested more deeply is rejected for its depth. -/
theorem compile_deep (shaped : ShapedProgram nodes)
    (deep : ¬ NestedProgram deepestLevel nodes) :
    ∃ error, compile (renderProgram nodes) = .error (.depth error) := by
  obtain ⟨tokens, complete, shown⟩ := shaped.tokens?
  rw [compile_of_tokens? complete]
  exact Grammar.parseProgram_deep shaped deep (lexical_of_tokens? complete) shown

end ShapedProgram

/-- Printing what was read loses nothing: the printed text is read completely, its tokens have
    the classes and texts of the tokens of the source in the same order, and it is compiled to
    the same program. -/
theorem compile_roundTrip {source : String} {nodes : List Node}
    (accepted : compile source = .ok nodes) :
    (∃ read written, (tokenize source).tokens? = .ok read ∧
      (tokenize (renderProgram nodes)).tokens? = .ok written ∧
        written.map Token.piece = read.map Token.piece) ∧
      compile (renderProgram nodes) = .ok nodes := by
  obtain ⟨read, complete, shown, shaped, nested⟩ := exists_of_compile accepted
  obtain ⟨written, complete', shown'⟩ := shaped.tokens?
  constructor
  · exact ⟨read, written, complete, complete', shown'.trans shown.symm⟩
  · exact shaped.compile_printed nested

/-- Signs, steps and points meet in this source without any layout between them. -/
theorem compile_roundTrip_crowded :
    ∃ nodes, compile "for(;;)\x7bx=- -1.0+y.x--*.5;\x7d" = .ok nodes ∧
      (∃ read written, (tokenize "for(;;)\x7bx=- -1.0+y.x--*.5;\x7d").tokens? = .ok read ∧
        (tokenize (renderProgram nodes)).tokens? = .ok written ∧
          written.map Token.piece = read.map Token.piece) ∧
        compile (renderProgram nodes) = .ok nodes := by
  have accepted : compile "for(;;)\x7bx=- -1.0+y.x--*.5;\x7d" = .ok [.loop .empty .empty .empty
      [.assignment "x" .assign (.binary [.add, .mul] [.unary .minus (.unary .minus (.float "1.0")),
        .crement .decrement true (.property (.reference "y") "x"), .float ".5"])]] := by
    decide +kernel
  exact ⟨_, accepted, compile_roundTrip accepted⟩

/-- A source text is accepted only as a program of the right shape, and within the limit of
    nesting. -/
theorem compile_sound {source : String} {nodes : List Node} (accepted : compile source = .ok nodes) :
    ShapedProgram nodes ∧ NestedProgram deepestLevel nodes := by
  obtain ⟨_, _, _, shaped, nested⟩ := exists_of_compile accepted
  exact ⟨shaped, nested⟩

/-- A program with a qualifier, a function with a loop in its body, a chain of operators and a step
    behind a property. -/
theorem compile_sound_qualified :
    ∃ nodes, compile ("uniform vec2 size;void main()\x7bfor(i=0;i<3;i++)" ++
        "\x7bv.x=(a-b*size.y--);\x7d\x7d") = .ok nodes ∧
      nodes = [.declaration (some .uniform) "vec2" "size" none,
        .function "void" "main" []
          [.loop (.assignment "i" .assign (.int "0"))
            (.expression (.binary [.less] [.reference "i", .int "3"]))
            (.expression (.crement .increment true (.reference "i")))
            [.propertyAssignment (.property (.reference "v") "x") .assign
              (.parenthesized (.binary [.sub, .mul] [.reference "a", .reference "b",
                .crement .decrement true (.property (.reference "size") "y")]))]]] ∧
        ShapedProgram nodes ∧ NestedProgram deepestLevel nodes := by
  have accepted : compile ("uniform vec2 size;void main()\x7bfor(i=0;i<3;i++)" ++
      "\x7bv.x=(a-b*size.y--);\x7d\x7d") =
        .ok [.declaration (some .uniform) "vec2" "size" none,
          .function "void" "main" []
            [.loop (.assignment "i" .assign (.int "0"))
              (.expression (.binary [.less] [.reference "i", .int "3"]))
              (.expression (.crement .increment true (.reference "i")))
              [.propertyAssignment (.property (.reference "v") "x") .assign
                (.parenthesized (.binary [.sub, .mul] [.reference "a", .reference "b",
                  .crement .decrement true (.property (.reference "size") "y")]))]]] := by
    decide +kernel
  exact ⟨_, accepted, rfl, compile_sound accepted⟩

/-- The printed text of every program of the right shape is compiled to this program, or
    rejected for its depth if it is nested more deeply than the limit. -/
theorem compile_complete {nodes : List Node} (shaped : ShapedProgram nodes) :
    (NestedProgram deepestLevel nodes → compile (renderProgram nodes) = .ok nodes) ∧
      (¬ NestedProgram deepestLevel nodes →
        ∃ error, compile (renderProgram nodes) = .error (.depth error)) :=
  ⟨shaped.compile_printed, shaped.compile_deep⟩

/-- A name in 63 parentheses stands on the deepest level that is read, and one in 64 is too
    deep. -/
theorem compile_complete_parentheses :
    compile (renderProgram [.expression (Nat.repeat .parenthesized 63 (.reference "x"))]) =
        .ok [.expression (Nat.repeat .parenthesized 63 (.reference "x"))] ∧
      ∃ error, compile (renderProgram
        [.expression (Nat.repeat .parenthesized 64 (.reference "x"))]) = .error (.depth error) := by
  have primary : ∀ count, Shaped .primary (Nat.repeat .parenthesized count (.reference "x")) := by
    intro count
    induction count with
    | zero => exact .reference (by decide)
    | succ count inductionHypothesis =>
      exact .parenthesized (.ofOperand (.ofPrimary inductionHypothesis))
  have shaped : ∀ count, ShapedProgram
      [.expression (Nat.repeat .parenthesized count (.reference "x"))] := by
    intro count node member
    obtain rfl := List.mem_singleton.mp member
    exact .ofStatement (.ofClause (.expression (.ofOperand (.ofPrimary (primary count)))))
  refine ⟨(compile_complete (shaped 63)).1 ?_, (compile_complete (shaped 64)).2 ?_⟩
  · simp [NestedProgram, Node.ListWithin, Node.Within, Nat.repeat, deepestLevel, maxDepth]
  · simp [NestedProgram, Node.ListWithin, Node.Within, Nat.repeat, deepestLevel, maxDepth]

end ShaderSource
