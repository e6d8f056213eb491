import ShaderSource.Proofs.Grammar.Termination
import ShaderSource.Proofs.RoundTrip
import ShaderSource.Proofs.Token.Spacing

/-!
# Where reading stops

A source of which all is tokens, but which is no program, is reported with the
place where reading stopped: a token that begins no statement, at the top or in a
body. The report names the token before it and repeats what is left, and this is
split into the same tokens again.

What stands before a failure at the top is a program by itself. Its statements
were read with other tokens behind them than the end, but they account for the
pieces before the failure, and every program is read back from its pieces.
-/

namespace ShaderSource

/-- A blank behind each text but the last. -/
def Spacing.blanks : List String → List (List Char)
  | [] => []
  | [_] => [[]]
  | _ :: next :: texts => [' '] :: blanks (next :: texts)

/-- Some texts with a blank between each two of them. -/
def Spacing.single (texts : List String) : Spacing texts where
  front := []
  behind := blanks texts
  length := by fun_induction blanks texts <;> simp_all
  separator := .done
  separators := by
    have blank : Text.isBlank ' ' = true := by decide
    fun_induction blanks texts with
    | case1 => exact .done
    | case2 => exact .last
    | case3 first next texts inductionHypothesis => exact .next blank .done inductionHypothesis

/-- Texts with single spaces between them. -/
theorem Spacing.single_source (texts : List String) :
    (single texts).source = " ".intercalate texts := by
  have joined : spaced texts (blanks texts) = [' '].intercalate (texts.map String.toList) := by
    fun_induction blanks texts with
    | case1 => rfl
    | case2 => simp [spaced]
    | case3 first next texts inductionHypothesis =>
      simp only [List.map_cons, List.intercalate_cons_cons] at inductionHypothesis ⊢
      rw [← inductionHypothesis]
      simp [spaced]
  rw [source, ← String.toList_inj, String.toList_ofList, String.toList_intercalate]
  exact joined

/-- The texts of some lexical pieces with a blank between each two of them are the same pieces
    again. -/
theorem tokens?_intercalate {pieces : List Piece}
    (lexical : ∀ piece ∈ pieces, piece.isLexical = true) :
    ∃ tokens, (tokenize (" ".intercalate (pieces.map Piece.text))).tokens? = .ok tokens ∧
      tokens.map Token.piece = pieces := by
  rw [← Spacing.single_source]
  exact (Spacing.single _).tokens? rfl lexical

section Places

variable {tokens : List Token} {position : Nat}

/-- The token before a place is the one at the position before. -/
theorem Place.previous_ofTokens (inside : position < tokens.length) :
    (Place.ofTokens tokens position).previous =
      if position = 0 then none else tokens[position - 1]? := by
  have before : position - 1 < tokens.length := by omega
  simp [Place.ofTokens, List.getLast?_take, List.getElem?_eq_getElem before]

/-- The tokens behind a place stand from the first of them to the last of all. -/
theorem Place.remainderSpan_ofTokens (inside : position < tokens.length) :
    (Place.ofTokens tokens position).remainderSpan =
      tokens[position].span.through (tokens.get ⟨tokens.length - 1, by omega⟩).span := by
  have parts : tokens.drop position = tokens[position] :: tokens.drop (position + 1) :=
    List.drop_eq_getElem_cons inside
  have spans : ∀ place : Place, ∀ first others, place.rest = first :: others →
      place.remainderSpan = first.span.through ((first :: others).getLast (by simp)).span := by
    rintro ⟨index, previous, rest⟩ first others rfl
    rfl
  rw [spans _ _ _ parts]
  simp only [← parts, List.getLast_drop]
  rw [List.getLast_eq_getElem, List.get_eq_getElem]

end Places

/-- A syntax error that says that reading some tokens stopped at a position. -/
structure SyntaxError.StopsAt (error : SyntaxError) (tokens : List Token) (position : Nat) :
    Prop where
  inside : position < tokens.length
  /-- What is left are the texts of the tokens from the position on. -/
  remainder : error.remainder = " ".intercalate ((tokens.drop position).map Token.text)
  /-- What is left is split into these tokens again. -/
  again : ∃ again, (tokenize error.remainder).tokens? = .ok again ∧
    again.map Token.piece = (tokens.drop position).map Token.piece
  /-- The last token is the one before, if there is one. -/
  last : error.last = if position = 0 then none else tokens[position - 1]?
  start : error.span.start = tokens[position].span.start
  stop : error.span.stop = (tokens.get ⟨tokens.length - 1, by omega⟩).span.stop
  /-- The token begins no statement at the top, or neither begins one in a body nor ends it. -/
  awaited : error.flags = .root ∧ error.expected = none ∨
    error.flags = .statement ∧ error.expected = some "\x7d" ∧ tokens[position].text ≠ "\x7d"
  /-- At the top, all tokens before the position are a program. -/
  complete : error.flags = .root → ∃ nodes,
    Grammar.glsl.parseProgram (tokens.take position) = .ok nodes

/-- The statements that are read at the top are a program by themselves, whatever stands behind
    them. -/
theorem Grammar.parseProgram_take {grammar : Grammar} [grammar.Arranged] {tokens : List Token}
    (lexical : ∀ token ∈ tokens, token.piece.isLexical = true) {nodes : List Node} {stop : Nat}
    (read : readNodes grammar.topReader .root (.ofTokens tokens 0) =
      .ok (nodes, .ofTokens tokens stop)) :
    grammar.parseProgram (tokens.take stop) = .ok nodes := by
  obtain ⟨split, all, _⟩ :=
    readNodes_reads grammar.topReader_reads (lexical_ofTokens lexical) read
  have whole : tokens.map Token.piece =
      programPieces nodes ++ (tokens.drop stop).map Token.piece := split
  have parts : (tokens.take stop).map Token.piece ++ (tokens.drop stop).map Token.piece =
      tokens.map Token.piece := by
    rw [← List.map_append, List.take_append_drop]
  have shown : (tokens.take stop).map Token.piece = programPieces nodes :=
    List.append_cancel_right (parts.trans whole)
  refine parseProgram_complete (fun node member => (all node member).1) ⟨by decide, ?_⟩ shown
  exact Node.listWithin_iff.mpr fun node member => (all node member).2

namespace SyntaxError

variable {tokens : List Token} {position : Nat} {token : Token} {flags : Flags}
  {expected : Option String}

/-- The failure at a place says where it is. -/
theorem stopsAt_unexpected (lexical : ∀ token ∈ tokens, token.piece.isLexical = true)
    (next : tokens[position]? = some token)
    (awaited : flags = .root ∧ expected = none ∨
      flags = .statement ∧ expected = some "\x7d" ∧ token.text ≠ "\x7d")
    (complete : flags = .root → ∃ nodes,
      Grammar.glsl.parseProgram (tokens.take position) = .ok nodes) :
    ((Place.ofTokens tokens position).unexpected flags expected).StopsAt tokens position := by
  obtain ⟨inside, rfl⟩ := List.getElem?_eq_some_iff.mp next
  have spans : ((Place.ofTokens tokens position).unexpected flags expected).span = _ :=
    Place.remainderSpan_ofTokens inside
  have left : ∀ piece ∈ (tokens.drop position).map Token.piece, piece.isLexical = true :=
    List.forall_mem_map.mpr fun token member => lexical token (List.mem_of_mem_drop member)
  have texts : ((tokens.drop position).map Token.piece).map Piece.text =
      (tokens.drop position).map Token.text := List.map_map
  have again := tokens?_intercalate left
  rw [texts] at again
  exact {
    inside := inside
    remainder := rfl
    again := again
    last := Place.previous_ofTokens inside
    start := by rw [spans, Span.through]
    stop := by rw [spans, Span.through]
    awaited := awaited
    complete := complete }

end SyntaxError

/-- A source that fails for its syntax consists of tokens, and the failure says at which of them
    reading stopped: it begins no statement at the top, where all tokens before it are a program, or
    no statement of a body, which it does not end either. -/
theorem compile_stopsAt {source : String} {error : SyntaxError}
    (failed : compile source = .error (.tokens error)) :
    ∃ tokens position, (tokenize source).tokens? = .ok tokens ∧ error.StopsAt tokens position := by
  cases given : (tokenize source).tokens? with
  | error other =>
    simp [compile, Grammar.compile, given] at failed
  | ok tokens =>
    have lexical := lexical_of_tokens? given
    have advances : Grammar.glsl.topReader.Advances tokens :=
      Grammar.glsl.bounded_topReader.advances Grammar.built_glsl
    have stops : readList Grammar.glsl.topReader .root none (.ofTokens tokens 0) =
        .error (.tokens error) := by
      rw [compile_of_tokens? given, Grammar.parseProgram, Grammar.parseAll] at failed
      generalize readList Grammar.glsl.topReader .root none (.ofTokens tokens 0) = result
        at failed ⊢
      cases result with
      | error other => exact congrArg Except.error (Except.error.inj failed)
      | ok found => simp [Except.map] at failed
    rcases advances.readNodes_moves .root 0 with ⟨nodes, stop, read, _⟩ | ⟨other, failed, fails⟩
    · rcases readList_of_readNodes read none with ⟨ended, _⟩ | ⟨stopped, token, next, _⟩
      · simp [ended] at stops
      · obtain rfl := ParseError.tokens.inj (Except.error.inj (stopped.symm.trans stops))
        refine ⟨tokens, stop, rfl, ?_⟩
        exact SyntaxError.stopsAt_unexpected lexical next (.inl ⟨rfl, rfl⟩)
          fun _ => ⟨nodes, Grammar.parseProgram_take lexical read⟩
    · rw [readList, failed] at stops
      obtain rfl := Except.error.inj stops
      cases fails with
      | stopped stopped =>
        obtain ⟨position, token, next, other, same⟩ := stopped
        obtain rfl := ParseError.tokens.inj same
        refine ⟨tokens, position, rfl, ?_⟩
        exact SyntaxError.stopsAt_unexpected lexical next
          (.inr ⟨rfl, rfl, fun closes => other (congrArg some closes.symm)⟩)
          fun same => absurd same (by decide)

/-- The first statement is a program, and the comment behind it is not repeated. -/
theorem compile_stopsAt_declaration :
    compile "x=1;/*y*/vec2 y z" =
        .error (.tokens ⟨.root, none, some ⟨.marker, ";", ⟨3, 4⟩⟩, "vec2 y z", ⟨9, 17⟩⟩) ∧
      ∃ tokens position, (tokenize "x=1;/*y*/vec2 y z").tokens? = .ok tokens ∧
        SyntaxError.StopsAt ⟨.root, none, some ⟨.marker, ";", ⟨3, 4⟩⟩, "vec2 y z", ⟨9, 17⟩⟩
          tokens position := by
  have failed : compile "x=1;/*y*/vec2 y z" =
      .error (.tokens ⟨.root, none, some ⟨.marker, ";", ⟨3, 4⟩⟩, "vec2 y z", ⟨9, 17⟩⟩) := by
    decide +kernel
  exact ⟨failed, compile_stopsAt failed⟩

end ShaderSource
