import ShaderSource.Proofs.Grammar.Levels
import ShaderSource.Tree.Equality

/-!
# Reading that begins at a depth

The rules of a grammar may be tried with any number of readers around them, up
to the limit. The deeper a reading begins, the fewer levels are left to it. This
can only cut it short: it comes to the same, or it fails for want of levels. No
rule and no repetition takes this failure for tokens that do not fit it, so
another tree is never built instead.
-/

namespace ShaderSource

namespace Grammar

/-- The reader that tries the rules at a depth. -/
def readerAt (grammar : Grammar) (depth : Nat) : NodeReader := grammar.reader (maxDepth + 1 - depth)

/-- Reads one node at a position of a list of tokens, beginning at a depth. -/
def parseOneAt (grammar : Grammar) (depth : Nat) (tokens : List Token) (position : Nat)
    (flags : Flags) (subject : Option Node) : Except ParseError (Option (Node × Place)) :=
  grammar.readerAt depth flags subject (.ofTokens tokens position)

/-- Reads nodes from a position of a list of tokens on, beginning at a depth. -/
def parseAllAt (grammar : Grammar) (depth : Nat) (tokens : List Token) (position : Nat)
    (flags : Flags) (terminator : Option String) : Except ParseError (List Node × Place) :=
  readList (grammar.readerAt depth) flags terminator (.ofTokens tokens position)

variable (grammar : Grammar)

/-- Reading begins at the first depth if no other is given. -/
theorem parseOneAt_zero : grammar.parseOneAt 0 = grammar.parseOne := rfl

/-- Programs are parsed from depth zero. -/
theorem parseAllAt_zero : grammar.parseAllAt 0 = grammar.parseAll := rfl

/-- Up to the limit the rules are tried at their depth, and what they read in turn is one level
    deeper. -/
theorem readerAt_eq {depth : Nat} (within : depth ≤ maxDepth) (flags : Flags)
    (subject : Option Node) (place : Place) :
    grammar.readerAt depth flags subject place =
      firstFit ⟨flags, subject, depth, grammar.readerAt (depth + 1)⟩ place
        (grammar.rules.filter (·.flags.intersects flags)) := by
  have levels : maxDepth + 1 - depth = maxDepth - depth + 1 := Nat.sub_add_comm within
  have below : maxDepth + 1 - (depth + 1) = maxDepth - depth := Nat.add_sub_add_right _ _ _
  have own : maxDepth - (maxDepth - depth) = depth := Nat.sub_sub_self within
  rw [readerAt, levels, reader_succ, setting, readerAt, below, own]

/-- Beyond the limit no rule is tried. -/
theorem readerAt_beyond (flags : Flags) (subject : Option Node) (place : Place) :
    grammar.readerAt (maxDepth + 1) flags subject place =
      .error (.depth ⟨maxDepth, place.span⟩) := by
  rw [readerAt, Nat.sub_self, reader]

end Grammar

/-- A result of reading and the result of the same reading begun deeper: it is the same unless
    levels are wanting, and levels that were wanting before still are. -/
structure CutShort {α : Type} (result deeper : Except ParseError α) : Prop where
  same : deeper = result ∨ ∃ error, deeper = .error (.depth error)
  wanting : (∃ error, result = .error (.depth error)) → ∃ error, deeper = .error (.depth error)

/-- A result that is the same or a failure by depth is cut short at the most. -/
theorem CutShort.of_agrees {α : Type} {result deeper : Except ParseError α}
    (agrees : (∃ error, deeper = .error (.depth error)) ∨ deeper = result) :
    CutShort result deeper where
  same := agrees.symm
  wanting := by
    rintro ⟨error, wants⟩
    rcases agrees with short | same
    · exact short
    · exact ⟨error, same.trans wants⟩

namespace Grammar

/-- A reader at a depth gives the results of one at a lesser depth, unless it wants levels. -/
theorem Steady.readerAt_agrees {grammar : Grammar} (steady : grammar.Steady) {depth deeper : Nat}
    (bound : depth ≤ deeper) : (grammar.readerAt deeper).Agrees (grammar.readerAt depth) :=
  steady.reader_le (Nat.sub_le_sub_left bound (maxDepth + 1))

/-- The limit cuts readings short and has no other part in what they come to: one that begins
    deeper gives the same node, list or failure, or it fails for want of levels, as it does wherever
    one that begins less deeply fails so. -/
theorem glsl_cutShort {depth deeper : Nat} (bound : depth ≤ deeper) :
    (∀ tokens position flags subject,
      CutShort (glsl.parseOneAt depth tokens position flags subject)
        (glsl.parseOneAt deeper tokens position flags subject)) ∧
    ∀ tokens position flags terminator,
      CutShort (glsl.parseAllAt depth tokens position flags terminator)
        (glsl.parseAllAt deeper tokens position flags terminator) := by
  have steady : glsl.Steady := Arranged.steady
  have agrees := steady.readerAt_agrees bound
  constructor
  · intro tokens position flags subject
    exact .of_agrees (agrees flags subject _)
  · intro tokens position flags terminator
    exact .of_agrees (agrees.readList flags terminator _)

/-- The value in the parentheses is three levels deeper than the one around them: at the depth 125
    it is read, and one level deeper the last level is wanting. -/
theorem glsl_cutShort_parenthesized :
    125 ≤ 126 ∧
      ∃ tokens, (tokenize "(a)").tokens? = .ok tokens ∧
        (glsl.parseOneAt 125 tokens 0 .value none).map (Option.map Prod.fst) =
          .ok (some (.parenthesized (.reference "a"))) ∧
        glsl.parseOneAt 126 tokens 0 .value none = .error (.depth ⟨128, ⟨1, 2⟩⟩) ∧
        CutShort (glsl.parseOneAt 125 tokens 0 .value none)
          (glsl.parseOneAt 126 tokens 0 .value none) := by
  have bound : 125 ≤ 126 := by decide
  have complete : (tokenize "(a)").tokens? = .ok
      [⟨.bracket, "(", ⟨0, 1⟩⟩, ⟨.identifier, "a", ⟨1, 2⟩⟩, ⟨.bracket, ")", ⟨2, 3⟩⟩] := by
    decide +kernel
  refine ⟨bound, _, complete, ?read, ?wanting, (glsl_cutShort bound).1 _ _ _ _⟩
  case read => decide +kernel
  case wanting => decide +kernel

end Grammar

end ShaderSource
