import ShaderSource.Proofs.Stopping
import ShaderSource.Proofs.Token.Partition

/-!
# Where failures are found

The span of a failure lies in the source text, and it begins and ends between
two characters. A failure of the characters is at one character, a failure of
the syntax goes from one token to the last one, and a failure for want of levels
is at a token. Only if the levels are used up behind the last token, the span is
empty, and it is at the end of this token.
-/

namespace ShaderSource

section Boundaries

variable {source text : List Char} {span : Span}

/-- A place between two characters of a text, or at one of its ends. -/
def IsBoundary (source : List Char) (offset : Nat) : Prop :=
  ∃ before after, source = before ++ after ∧ offset = utf8Length before

/-- Only the empty text has no bytes. -/
theorem eq_nil_of_utf8Length (empty : utf8Length text = 0) : text = [] := by
  by_contra filled
  exact absurd empty (utf8Length_pos filled).ne'

/-- A span that cuts out a text begins between two characters. -/
theorem Span.Cuts.start_isBoundary (cuts : span.Cuts source text) :
    IsBoundary source span.start := by
  obtain ⟨before, after, rfl, start, _⟩ := cuts
  exact ⟨before, text ++ after, List.append_assoc _ _ _, start⟩

/-- A span that cuts out a text ends between two characters. -/
theorem Span.Cuts.stop_isBoundary (cuts : span.Cuts source text) :
    IsBoundary source span.stop := by
  obtain ⟨before, after, rfl, _, stop⟩ := cuts
  exact ⟨before ++ text, after, rfl, stop⟩

/-- Between two boundaries of a text stands a part of it. -/
theorem Span.exists_cuts (span : Span) (start : IsBoundary source span.start)
    (stop : IsBoundary source span.stop) (ordered : span.start ≤ span.stop) :
    ∃ text, span.Cuts source text := by
  obtain ⟨before, behind, rfl, started⟩ := start
  obtain ⟨before', behind', parts, stopped⟩ := stop
  rcases List.append_eq_append_iff.mp parts with ⟨text, rfl, rfl⟩ | ⟨text, rfl, rfl⟩
  · exact ⟨text, before, behind', (List.append_assoc _ _ _).symm, started, stopped⟩
  · have empty : text = [] := by
      apply eq_nil_of_utf8Length
      rw [utf8Length_append] at started
      omega
    subst empty
    exact ⟨[], before', behind, by simp, by simpa using started, by simpa using stopped⟩

/-- A span that cuts out a text lies in the source. -/
theorem Span.Cuts.bounds (cuts : span.Cuts source text) :
    span.start ≤ span.stop ∧ span.stop ≤ utf8Length source := by
  obtain ⟨before, after, rfl, start, stop⟩ := cuts
  rw [utf8Length_append _ after, start, stop, utf8Length_append]
  exact ⟨Nat.le_add_right _ _, Nat.le_add_right _ _⟩

/-- The bytes of a text are those of its characters. -/
theorem utf8ByteSize_eq (text : String) : text.utf8ByteSize = utf8Length text.toList := by
  rw [← String.ofList_toList (s := text), String.toList_ofList]
  induction text.toList with
  | nil => rfl
  | cons char rest inductionHypothesis =>
    rw [String.ofList_cons, String.utf8ByteSize_append, String.utf8ByteSize_singleton,
      inductionHypothesis, utf8Length_cons]

end Boundaries

/-- A failure is found in a source text. -/
structure ParseError.Located (error : ParseError) (source : String) : Prop where
  /-- The span begins and ends between characters of the source. -/
  cuts : ∃ text, error.span.Cuts source.toList text
  ordered : error.span.start ≤ error.span.stop
  inside : error.span.stop ≤ source.utf8ByteSize
  /-- There are characters in the span, unless the levels are used up behind the last token. -/
  filled : error.span.start < error.span.stop ∨
    ∃ tokens last, (tokenize source).tokens? = .ok (tokens ++ [last]) ∧
      error = .depth ⟨maxDepth, .empty last.span.stop⟩

/-- A part of the source is inside it. -/
theorem ParseError.located_of_cuts {error : ParseError} {source : String} {text : List Char}
    (cuts : error.span.Cuts source.toList text)
    (filled : error.span.start < error.span.stop ∨
      ∃ tokens last, (tokenize source).tokens? = .ok (tokens ++ [last]) ∧
        error = .depth ⟨maxDepth, .empty last.span.stop⟩) : error.Located source where
  cuts := ⟨text, cuts⟩
  ordered := cuts.bounds.1
  inside := by
    rw [utf8ByteSize_eq]
    exact cuts.bounds.2
  filled := filled

section Tokens

variable {source : String} {tokens : List Token} {error : ParseError} {position : Nat}

/-- The tokens of a source stand in it one behind the other, and none of them is empty. -/
structure Token.Placed (source : String) (tokens : List Token) : Prop where
  held : ∀ token ∈ tokens, token.span.Cuts source.toList token.text.toList
  filled : ∀ token ∈ tokens, token.span.start < token.span.stop
  increasing : tokens.Pairwise fun token later => token.span.stop ≤ later.span.start

/-- A source is read up to a place, and the part before it is partitioned. -/
theorem exists_partition_of_source (source : String) :
    ∃ front remainder tokens, source.toList = front ++ remainder ∧ Partition front 0 tokens ∧
      tokenize source = ⟨tokens, String.ofList remainder, utf8Length front⟩ := by
  obtain ⟨items, split⟩ := Split.exists_items source.toList 0
  obtain ⟨front, remainder, tokens, parts, partition, whole, _⟩ := split.exists_partition
  rw [Nat.zero_add] at whole
  exact ⟨front, remainder, tokens, parts, partition, whole⟩

/-- The tokens of a source stand where their spans say. -/
theorem placed_of_tokens? (given : (tokenize source).tokens? = .ok tokens) :
    Token.Placed source tokens := by
  obtain ⟨front, remainder, read, parts, partition, whole⟩ := exists_partition_of_source source
  obtain rfl : read = tokens := by
    rw [← Lexed.tokens_of_ok given]
    exact (congrArg Lexed.tokens whole).symm
  exact {
    held := by
      rw [parts]
      exact partition.held [] remainder rfl
    filled := fun token member => (partition.inside token member).2.1
    increasing := partition.increasing }

/-- A character that begins no token is found where reading stopped. -/
theorem LexError.located {error : LexError} (failed : (tokenize source).tokens? = .error error) :
    (ParseError.lex error).Located source := by
  obtain ⟨front, remainder, read, parts, _, given⟩ := exists_partition_of_source source
  obtain ⟨rest, remains, same, _⟩ := Lexed.exists_of_tokens?_error failed
  rw [given, String.toList_ofList] at remains
  have span : error.span = ⟨utf8Length front, utf8Length (front ++ [error.found])⟩ := by
    rw [same, given, utf8Length_append, utf8Length_cons, utf8Length_nil, Nat.add_zero]
    rfl
  have cuts : error.span.Cuts source.toList [error.found] := by
    rw [span]
    exact ⟨front, rest, by rw [parts, remains, List.append_assoc, List.singleton_append], rfl, rfl⟩
  refine ParseError.located_of_cuts cuts (.inl ?_)
  change error.span.start < error.span.stop
  rw [span, utf8Length_append]
  exact Nat.lt_add_of_pos_right (utf8Length_pos (List.cons_ne_nil _ _))

/-- The tokens that are left go from a token to the last one. -/
theorem Stopped.located {flags : Flags} {terminator : Option String}
    (placed : Token.Placed source tokens) (stops : Stopped tokens flags terminator error) :
    error.Located source := by
  obtain ⟨position, token, next, _, rfl⟩ := stops
  obtain ⟨inside, rfl⟩ := List.getElem?_eq_some_iff.mp next
  have final : tokens.length - 1 < tokens.length := by omega
  have first := placed.held _ (List.getElem_mem inside)
  have last := placed.held _ (List.getElem_mem final)
  have span : ((Place.ofTokens tokens position).unexpected flags terminator).span =
      tokens[position].span.through tokens[tokens.length - 1].span :=
    Place.remainderSpan_ofTokens inside
  have ordered : tokens[position].span.start < tokens[tokens.length - 1].span.stop := by
    have positive := placed.filled _ (List.getElem_mem inside)
    rcases Nat.lt_or_eq_of_le (Nat.le_sub_one_of_lt inside) with before | same
    · have apart := List.pairwise_iff_getElem.mp placed.increasing _ _ inside final before
      have positive' := placed.filled _ (List.getElem_mem final)
      omega
    · simpa only [← same] using positive
  obtain ⟨text, cuts⟩ := Span.exists_cuts
    (tokens[position].span.through tokens[tokens.length - 1].span)
    first.start_isBoundary last.stop_isBoundary ordered.le
  have filled : ((Place.ofTokens tokens position).unexpected flags terminator).span.start <
      ((Place.ofTokens tokens position).unexpected flags terminator).span.stop := by
    rw [span]
    exact ordered
  rw [← span] at cuts
  exact ParseError.located_of_cuts cuts (.inl filled)

/-- At a place stands a token, or the place is behind the last one. -/
theorem Place.span_ofTokens (some : tokens ≠ []) (position : Nat) :
    (∃ token ∈ tokens, (Place.ofTokens tokens position).span = token.span) ∨
      ∃ others last, tokens = others ++ [last] ∧
        (Place.ofTokens tokens position).span = .empty last.span.stop := by
  cases shown : tokens.drop position with
  | cons token rest =>
    refine .inl ⟨token, List.mem_of_mem_drop (i := position) ?_, ?_⟩
    · rw [shown]
      exact List.mem_cons_self
    · simp only [Place.span, Place.ofTokens, shown]
  | nil =>
    have whole : tokens.take position = tokens :=
      List.take_of_length_le (List.drop_eq_nil_iff.mp shown)
    obtain ⟨others, last, rfl⟩ := (List.eq_nil_or_concat' tokens).resolve_left some
    refine .inr ⟨others, last, rfl, ?_⟩
    simp only [Place.span, Place.previousStop, Place.ofTokens, shown, whole, List.getLast?_concat]

/-- Where the levels are used up stands a token, or it is behind the last one. -/
theorem Fatal.located (given : (tokenize source).tokens? = .ok tokens) (some : tokens ≠ [])
    (fails : Fatal tokens error) : error.Located source := by
  have placed := placed_of_tokens? given
  cases fails with
  | stopped stops => exact stops.located placed
  | exhausted position =>
    rcases Place.span_ofTokens some position with ⟨token, member, span⟩ | ⟨others, last, rfl, span⟩
    · rw [span]
      exact ParseError.located_of_cuts (placed.held token member)
        (.inl (placed.filled token member))
    · rw [span]
      have stop := (placed.held last List.mem_concat_self).stop_isBoundary
      obtain ⟨text, cuts⟩ := Span.exists_cuts (.empty last.span.stop) stop stop le_rfl
      exact ParseError.located_of_cuts cuts (.inr ⟨others, last, given, rfl⟩)

end Tokens

/-- A failure of reading a source is found in it. -/
theorem ParseError.located_of_compile {source : String} {error : ParseError}
    (failed : compile source = .error error) : error.Located source := by
  cases given : (tokenize source).tokens? with
  | error other =>
    obtain rfl : ParseError.lex other = error := by
      simpa [compile, Grammar.compile, given] using failed
    exact LexError.located given
  | ok tokens =>
    have advances : Grammar.glsl.topReader.Advances tokens :=
      Grammar.glsl.bounded_topReader.advances Grammar.built_glsl
    rw [compile_of_tokens? given] at failed
    have some : tokens ≠ [] := by
      rintro rfl
      have nothing : Grammar.glsl.parseProgram [] = .ok [] := by decide +kernel
      rw [nothing] at failed
      exact absurd failed (by simp)
    rw [Grammar.parseProgram, Grammar.parseAll] at failed
    rcases advances.readList_moves .root none 0 with
      ⟨nodes, stop, read, _⟩ | ⟨other, read, fails⟩
    · rw [read] at failed
      exact absurd failed (by simp [Except.map])
    · rw [read] at failed
      obtain rfl : other = error := Except.error.inj failed
      rcases fails with fatal | stops
      · exact fatal.located given some
      · exact stops.located (placed_of_tokens? given)

end ShaderSource
