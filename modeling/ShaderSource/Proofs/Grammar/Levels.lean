import ShaderSource.Proofs.Grammar.Parallel

/-!
# More levels give the same results

A reader that runs out of levels fails at once, and the failure is final. So
two readers of one grammar with different numbers of levels agree wherever the
one with fewer levels does not fail for want of them: the limit ends a reading,
but it never changes its result. This holds of every grammar whose rules look
at their setting only through the readers nested in it.
-/

namespace ShaderSource

/-- The comparison with a reading of the same tokens that has more levels left. Only a want of
    levels excuses the first reading. -/
def Comparison.levels : Comparison where
  places := Eq
  failures := Eq
  excused error := ∃ depth, error = .depth depth
  pieces := congrArg Place.pieces
  advance := congrArg Place.advance
  unexpected := by
    rintro place _ rfl flags expected
    rfl

/-- Results that compare by levels are the same, unless the first wants levels. -/
theorem Comparison.Results.of_levels {α : Type} {values : α → α → Prop}
    (same : ∀ value other, values value other → value = other) {result other : Except ParseError α}
    (results : Comparison.levels.Results values result other) :
    (∃ error, result = .error (.depth error)) ∨ result = other := by
  cases results with
  | read alike => exact .inr (congrArg Except.ok (same _ _ alike))
  | failed alike => exact .inr (congrArg Except.error alike)
  | excused alone =>
    obtain ⟨depth, rfl⟩ := alone
    exact .inl ⟨depth, rfl⟩

/-- Values and places that go together in readings of the same tokens are the same. -/
theorem Comparison.eq_of_together {α : Type} (result other : α × Place)
    (together : Comparison.levels.Together Eq result other) : result = other :=
  Prod.ext together.1 together.2

/-- Wherever the first reader has enough levels, the second gives the same result. -/
def NodeReader.Agrees (shallow deep : NodeReader) : Prop :=
  ∀ flags subject place,
    (∃ error, shallow flags subject place = .error (.depth error)) ∨
      shallow flags subject place = deep flags subject place

namespace NodeReader.Agrees

variable {shallow middle deep : NodeReader}

/-- A reader agrees with itself. -/
theorem refl (reader : NodeReader) : reader.Agrees reader := fun _ _ _ => .inr rfl

/-- A reader agrees with what a deeper one that it agrees with does. -/
theorem trans (first : shallow.Agrees middle) (second : middle.Agrees deep) :
    shallow.Agrees deep := by
  intro flags subject place
  rcases first flags subject place with short | same
  · exact .inl short
  · rw [same]
    exact second flags subject place

/-- Readers that agree stay together in the comparison by levels. -/
theorem readers (agrees : shallow.Agrees deep) : Comparison.levels.Readers shallow deep := by
  rintro flags subject place _ rfl
  rcases agrees flags subject place with ⟨error, short⟩ | same
  · rw [short]
    exact .excused ⟨error, rfl⟩
  · rw [same]
    cases deep flags subject place with
    | error error => exact .failed rfl
    | ok found =>
      cases found with
      | none => exact .read .none
      | some found => exact .read (.some ⟨rfl, rfl⟩)

/-- A result other than a want of levels is also the result of a reader with more of
    them. -/
theorem of_ok (agrees : shallow.Agrees deep) {flags : Flags} {subject : Option Node}
    {place : Place} {result : Option (Node × Place)}
    (success : shallow flags subject place = .ok result) :
    deep flags subject place = .ok result := by
  rcases agrees flags subject place with ⟨error, short⟩ | same
  · rw [short] at success
    exact absurd success nofun
  · exact same.symm.trans success

/-- A list of nodes that is read with some levels is read alike with more of them. -/
theorem readList (agrees : shallow.Agrees deep) (flags : Flags) (terminator : Option String)
    (place : Place) :
    (∃ error, ShaderSource.readList shallow flags terminator place = .error (.depth error)) ∨
      ShaderSource.readList shallow flags terminator place =
        ShaderSource.readList deep flags terminator place :=
  (Comparison.results_readList agrees.readers flags terminator rfl).of_levels
    Comparison.eq_of_together

end NodeReader.Agrees

namespace Grammar.Steady

variable {grammar : Grammar}

/-- With one more level a reader gives the same results. The induction is on the levels:
    without any, reading wants levels everywhere. -/
theorem reader_succ (steady : grammar.Steady) (levels : Nat) :
    (grammar.reader levels).Agrees (grammar.reader (levels + 1)) := by
  induction levels with
  | zero => exact fun _ _ place => .inl ⟨⟨maxDepth, place.span⟩, rfl⟩
  | succ levels inductionHypothesis =>
    intro flags subject place
    have settings : Comparison.levels.Settings
        ⟨flags, subject, maxDepth - levels, grammar.reader levels⟩
        ⟨flags, subject, maxDepth - (levels + 1), grammar.reader (levels + 1)⟩ :=
      ⟨rfl, inductionHypothesis.readers⟩
    refine (Comparison.results_firstFit fun rule member => ?_).of_levels ?_
    · exact steady .levels rule (List.mem_filter.mp member).1 _ _ settings rfl place place rfl
    · intro found found' alike
      cases alike with
      | none => rfl
      | some together => exact congrArg some (Comparison.eq_of_together _ _ together)

/-- A reader agrees with all that have more levels. -/
theorem reader_le (steady : grammar.Steady) {fewer more : Nat} (bound : fewer ≤ more) :
    (grammar.reader fewer).Agrees (grammar.reader more) := by
  induction bound with
  | refl => exact .refl _
  | step _ inductionHypothesis => exact inductionHypothesis.trans (steady.reader_succ _)

end Grammar.Steady

end ShaderSource
