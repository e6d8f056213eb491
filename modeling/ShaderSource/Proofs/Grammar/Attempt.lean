import ShaderSource.Grammar.Attempt
import ShaderSource.Proofs.Token.Piece

/-!
# What attempts do to the pieces before them

An attempt decides by the pieces that lie before a place. Three judgements say
what it does to them. It `Reads` with a condition if every success on lexical
pieces takes some of them that meet the condition. It `Takes` some pieces in
front of others if it succeeds there, and leaves the others. It `Rejects` some
pieces if they do not fit it. Each judgement passes through a sequence of
attempts, so a rule is followed step by step.
-/

namespace ShaderSource

namespace Place

/-- The pieces behind a place. -/
def pieces (place : Place) : List Piece := place.rest.map Token.piece

/-- All pieces behind a place can occur in a source text. -/
def Lexical (place : Place) : Prop := ∀ piece ∈ place.pieces, piece.isLexical = true

/-- Whether the next piece, if there is one, has a property. -/
theorem any_head (place : Place) (property : Piece → Bool) :
    place.rest.head?.any (fun token => property token.piece) = place.pieces.head?.any property := by
  cases place with
  | mk index previous rest => cases rest <;> rfl

/-- The pieces behind a later place are lexical too. -/
theorem Lexical.of_append {place after : Place} {consumed : List Piece}
    (lexical : place.Lexical) (split : place.pieces = consumed ++ after.pieces) :
    after.Lexical := fun piece member =>
  lexical piece (split ▸ List.mem_append_right consumed member)

/-- A place moves on when some piece before it is taken. -/
theorem advances {place after : Place} {consumed : List Piece}
    (split : place.pieces = consumed ++ after.pieces) (some : consumed ≠ []) :
    after.rest.length < place.rest.length := by
  have lengths := congrArg List.length split
  have positive := List.length_pos_iff.mpr some
  simp only [pieces, List.length_map, List.length_append] at lengths
  omega

end Place

namespace Attempt

variable {α β σ : Type} {setting : Setting}

/-- The second part of a sequence starts where the first one stopped, and a failure of the first
    is that of the whole. -/
theorem bind_apply (attempt : Attempt α) (next : α → Attempt β) (setting : Setting)
    (place : Place) :
    (attempt >>= next) setting place =
      match attempt setting place with
      | .ok (value, after) => next value setting after
      | .error reject => .error reject := by
  simp only [bind, ReaderT.bind, StateT.bind, Except.bind]
  cases attempt setting place <;> rfl

/-- A sequence succeeds exactly if its parts do, one after the other. -/
theorem bind_eq_ok {attempt : Attempt α} {next : α → Attempt β} {place : Place}
    {result : β × Place} :
    (attempt >>= next) setting place = .ok result ↔
      ∃ value after, attempt setting place = .ok (value, after) ∧
        next value setting after = .ok result := by
  rw [bind_apply]
  constructor
  · intro success
    split at success
    case h_1 value after read => exact ⟨value, after, read, success⟩
    case h_2 => simp at success
  · rintro ⟨value, after, read, success⟩
    rw [read]
    exact success

/-- A value that is given leaves the place. -/
theorem pure_apply (value : α) (setting : Setting) (place : Place) :
    (pure value : Attempt α) setting place = .ok (value, place) := rfl

/-- Every success on lexical pieces takes some of them that meet a condition. -/
def Reads (attempt : Attempt α) (setting : Setting) (condition : α → List Piece → Prop) : Prop :=
  ∀ place value after, place.Lexical → attempt setting place = .ok (value, after) →
    ∃ consumed, place.pieces = consumed ++ after.pieces ∧ condition value consumed

/-- The attempt takes some pieces in front of others, with a result that meets a
    condition. -/
def Takes (attempt : Attempt α) (setting : Setting) (taken later : List Piece)
    (condition : α → Prop) : Prop :=
  ∀ place, place.pieces = taken ++ later →
    ∃ value after, attempt setting place = .ok (value, after) ∧ condition value ∧
      after.pieces = later

/-- The pieces do not fit the attempt. -/
def Rejects (attempt : Attempt α) (setting : Setting) (pieces : List Piece) : Prop :=
  ∀ place, place.pieces = pieces → attempt setting place = .error .mismatch

section Sequence

variable {attempt : Attempt α} {next : α → Attempt β}

/-- What the parts of a sequence take is put together. -/
theorem Reads.bind {first : α → List Piece → Prop} {condition : β → List Piece → Prop}
    (leading : attempt.Reads setting first)
    (following : ∀ value taken, first value taken →
      (next value).Reads setting fun result consumed => condition result (taken ++ consumed)) :
    (attempt >>= next).Reads setting condition := by
  intro place result final lexical success
  obtain ⟨value, after, read, success⟩ := bind_eq_ok.mp success
  obtain ⟨taken, split, met⟩ := leading place value after lexical read
  obtain ⟨consumed, split', met'⟩ :=
    following value taken met after result final (lexical.of_append split) success
  exact ⟨taken ++ consumed, by rw [split, split', List.append_assoc], met'⟩

/-- A value that is given takes no piece. -/
theorem Reads.pure {value : α} {condition : α → List Piece → Prop}
    (met : condition value []) : (Pure.pure value : Attempt α).Reads setting condition := by
  intro place result after _ success
  rw [pure_apply] at success
  obtain ⟨rfl, rfl⟩ := Prod.mk.inj (Except.ok.inj success)
  exact ⟨[], rfl, met⟩

/-- The condition may be weakened. -/
theorem Reads.imp {condition weaker : α → List Piece → Prop}
    (reads : attempt.Reads setting condition)
    (implied : ∀ value consumed, condition value consumed → weaker value consumed) :
    attempt.Reads setting weaker := by
  intro place value after lexical success
  obtain ⟨consumed, split, met⟩ := reads place value after lexical success
  exact ⟨consumed, split, implied value consumed met⟩

/-- A change of the result is made behind what was read. -/
theorem Reads.map {first : α → List Piece → Prop} {condition : β → List Piece → Prop}
    {change : α → β} (reads : attempt.Reads setting first)
    (implied : ∀ value consumed, first value consumed → condition (change value) consumed) :
    (change <$> attempt).Reads setting condition := by
  rw [← bind_pure_comp]
  refine reads.bind fun value taken met => Reads.pure ?_
  simpa using implied value taken met

/-- The first part takes its pieces in front of those of the second. -/
theorem Takes.bind {taken middle later : List Piece} {first : α → Prop} {condition : β → Prop}
    (leading : attempt.Takes setting taken (middle ++ later) first)
    (following : ∀ value, first value → (next value).Takes setting middle later condition) :
    (attempt >>= next).Takes setting (taken ++ middle) later condition := by
  intro place split
  obtain ⟨value, after, read, met, rest⟩ := leading place (by rw [split, List.append_assoc])
  obtain ⟨result, final, read', met', rest'⟩ := following value met after rest
  exact ⟨result, final, by rw [bind_apply, read]; exact read', met', rest'⟩

/-- A first part that takes nothing. -/
theorem Takes.skip {middle later : List Piece} {first : α → Prop} {condition : β → Prop}
    (leading : attempt.Takes setting [] (middle ++ later) first)
    (following : ∀ value, first value → (next value).Takes setting middle later condition) :
    (attempt >>= next).Takes setting middle later condition := leading.bind following

/-- A second part that takes nothing. -/
theorem Takes.close {taken later : List Piece} {first : α → Prop} {condition : β → Prop}
    (leading : attempt.Takes setting taken later first)
    (following : ∀ value, first value → (next value).Takes setting [] later condition) :
    (attempt >>= next).Takes setting taken later condition := by
  rw [← List.append_nil taken]
  exact Takes.bind leading following

/-- A value that is given takes nothing, whatever follows. -/
theorem Takes.pure {value : α} {later : List Piece} {condition : α → Prop}
    (met : condition value) :
    (Pure.pure value : Attempt α).Takes setting [] later condition := fun place split =>
  ⟨value, place, pure_apply value setting place, met, split⟩

/-- The condition may be weakened. -/
theorem Takes.imp {taken later : List Piece} {condition weaker : α → Prop}
    (takes : attempt.Takes setting taken later condition)
    (implied : ∀ value, condition value → weaker value) :
    attempt.Takes setting taken later weaker := by
  intro place split
  obtain ⟨value, after, read, met, rest⟩ := takes place split
  exact ⟨value, after, read, implied value met, rest⟩

/-- A change of the result takes no further piece. -/
theorem Takes.map {taken later : List Piece} {first : α → Prop} {condition : β → Prop}
    {change : α → β} (takes : attempt.Takes setting taken later first)
    (implied : ∀ value, first value → condition (change value)) :
    (change <$> attempt).Takes setting taken later condition := by
  rw [← bind_pure_comp]
  exact takes.close fun value met => Takes.pure (implied value met)

/-- What does not fit the first part does not fit the sequence. -/
theorem Rejects.bind {pieces : List Piece} (rejects : attempt.Rejects setting pieces) :
    (attempt >>= next).Rejects setting pieces := by
  intro place split
  rw [bind_apply, rejects place split]

/-- A sequence rejects what its second part does, once the first has taken its pieces. -/
theorem Takes.rejects {taken later : List Piece} {first : α → Prop}
    (leading : attempt.Takes setting taken later first)
    (following : ∀ value, first value → (next value).Rejects setting later) :
    (attempt >>= next).Rejects setting (taken ++ later) := by
  intro place split
  obtain ⟨value, after, read, met, rest⟩ := leading place split
  rw [bind_apply, read]
  exact following value met after rest

/-- A sequence rejects what its second part does, if the first part takes nothing. -/
theorem Takes.skip_rejects {pieces : List Piece} {first : α → Prop}
    (leading : attempt.Takes setting [] pieces first)
    (following : ∀ value, first value → (next value).Rejects setting pieces) :
    (attempt >>= next).Rejects setting pieces := leading.rejects following

end Sequence

section Tokens

variable {pattern : Token → Bool}

/-- A token that is read is one piece, and one of the pattern. -/
theorem reads_token :
    (token pattern).Reads setting fun taken consumed =>
      pattern taken = true ∧ taken.piece.isLexical = true ∧ consumed = [taken.piece] := by
  intro place taken after lexical success
  cases place with
  | mk index previous rest =>
    cases rest with
    | nil => simp [token] at success
    | cons first others =>
      by_cases fits : pattern first = true
      · simp only [token, fits, if_true, Place.advance, Except.ok.injEq, Prod.mk.injEq] at success
        obtain ⟨rfl, rfl⟩ := success
        exact ⟨[first.piece], rfl, fits, lexical first.piece (by simp [Place.pieces]), rfl⟩
      · simp [token, fits] at success

/-- An optional token leaves everything where it is if it is not there. -/
theorem reads_token? :
    (token? pattern).Reads setting fun taken consumed =>
      (∀ shown, taken = some shown → pattern shown = true ∧ shown.piece.isLexical = true ∧
        consumed = [shown.piece]) ∧ (taken = none → consumed = []) := by
  intro place taken after lexical success
  cases place with
  | mk index previous rest =>
    cases rest with
    | nil =>
      obtain ⟨rfl, rfl⟩ := Prod.mk.inj (Except.ok.inj success)
      exact ⟨[], rfl, by simp⟩
    | cons first others =>
      by_cases fits : pattern first = true
      · simp only [token?, fits, if_true, Place.advance, Except.ok.injEq, Prod.mk.injEq] at success
        obtain ⟨rfl, rfl⟩ := success
        refine ⟨[first.piece], rfl, ?_, by simp⟩
        rintro shown same
        obtain rfl := Option.some.inj same
        exact ⟨fits, lexical first.piece (by simp [Place.pieces]), rfl⟩
      · have left : token? pattern setting ⟨index, previous, first :: others⟩ =
            .ok (none, ⟨index, previous, first :: others⟩) := by simp [token?, fits]
        obtain ⟨rfl, rfl⟩ := Prod.mk.inj (Except.ok.inj (left.symm.trans success))
        exact ⟨[], rfl, by simp⟩

/-- A piece is taken if the pattern fits every token that shows it. -/
theorem takes_token {piece : Piece} {later : List Piece}
    (fits : ∀ shown : Token, shown.piece = piece → pattern shown = true) :
    (token pattern).Takes setting [piece] later fun shown => shown.piece = piece := by
  intro place split
  cases place with
  | mk index previous rest =>
    cases rest with
    | nil => simp [Place.pieces] at split
    | cons first others =>
      obtain ⟨same, behind⟩ := List.cons.inj split
      exact ⟨first, ⟨index + 1, some first, others⟩,
        by simp [token, fits first same, Place.advance], same, behind⟩

/-- An optional token that is there is taken. -/
theorem takes_token? {piece : Piece} {later : List Piece}
    (fits : ∀ shown : Token, shown.piece = piece → pattern shown = true) :
    (token? pattern).Takes setting [piece] later fun taken =>
      ∃ shown, taken = some shown ∧ shown.piece = piece := by
  intro place split
  cases place with
  | mk index previous rest =>
    cases rest with
    | nil => simp [Place.pieces] at split
    | cons first others =>
      obtain ⟨same, behind⟩ := List.cons.inj split
      exact ⟨some first, ⟨index + 1, some first, others⟩,
        by simp [token?, fits first same, Place.advance], ⟨first, rfl, same⟩, behind⟩

/-- The first of some pieces, if there is one, is not what a pattern asks for. -/
def Misses (pattern : Token → Bool) (pieces : List Piece) : Prop :=
  ∀ shown : Token, pieces.head? = some shown.piece → pattern shown = false

/-- The pattern fits no token at a place with pieces that it misses. -/
theorem Misses.of_place {place : Place} {pieces : List Piece} (misses : Misses pattern pieces)
    (split : place.pieces = pieces) : place.rest.head?.any pattern = false := by
  subst split
  cases place with
  | mk index previous rest =>
    cases rest with
    | nil => rfl
    | cons first others => exact misses first rfl

/-- A token is rejected where its pattern misses. -/
theorem rejects_token {pieces : List Piece} (misses : Misses pattern pieces) :
    (token pattern).Rejects setting pieces := by
  intro place split
  have other := misses.of_place split
  cases place with
  | mk index previous rest =>
    cases rest with
    | nil => rfl
    | cons first others =>
      have unfit : pattern first = false := by simpa using other
      simp [token, unfit]

/-- An optional token that is not there takes nothing. -/
theorem takes_token?_none {pieces : List Piece} (misses : Misses pattern pieces) :
    (token? pattern).Takes setting [] pieces fun taken => taken = none := by
  intro place split
  have other := misses.of_place split
  cases place with
  | mk index previous rest =>
    cases rest with
    | nil => exact ⟨none, _, rfl, rfl, split⟩
    | cons first others =>
      have unfit : pattern first = false := by simpa using other
      exact ⟨none, _, by simp [token?, unfit], rfl, split⟩

end Tokens

section Conditions

/-- A check that succeeds has found its condition, and takes nothing. -/
theorem reads_validate {fits : Bool} :
    (validate fits).Reads setting fun _ consumed => fits = true ∧ consumed = [] := by
  intro place value after _ success
  cases fits with
  | false => simp [validate] at success
  | true =>
    obtain ⟨rfl, rfl⟩ := Prod.mk.inj (Except.ok.inj success)
    exact ⟨[], rfl, rfl, rfl⟩

/-- A check succeeds where its condition holds. -/
theorem takes_validate {fits : Bool} {later : List Piece} (holds : fits = true) :
    (validate fits).Takes setting [] later fun _ => True := by
  intro place split
  exact ⟨(), place, by simp [validate, holds], trivial, split⟩

/-- A check whose condition fails rejects all pieces. -/
theorem rejects_validate {fits : Bool} {pieces : List Piece} (fails : fits = false) :
    (validate fits).Rejects setting pieces := by
  intro place _
  simp [validate, fails]

/-- A word that is looked up was known. -/
theorem reads_spelled {word : Except SpellingError α} :
    (spelled word).Reads setting fun read consumed => word = .ok read ∧ consumed = [] := by
  intro place value after _ success
  cases word with
  | error => simp [spelled] at success
  | ok read =>
    obtain ⟨rfl, rfl⟩ := Prod.mk.inj (Except.ok.inj success)
    exact ⟨[], rfl, rfl, rfl⟩

/-- A word that is known is found. -/
theorem takes_spelled {word : Except SpellingError α} {read : α} {later : List Piece}
    (known : word = .ok read) :
    (spelled word).Takes setting [] later fun value => value = read := by
  intro place split
  exact ⟨read, place, by simp [spelled, known], rfl, split⟩

/-- The context that is read is that of the setting. -/
theorem reads_flags :
    Attempt.flags.Reads setting fun read consumed => read = setting.flags ∧ consumed = [] := by
  intro place value after _ success
  obtain ⟨rfl, rfl⟩ := Prod.mk.inj (Except.ok.inj success)
  exact ⟨[], rfl, rfl, rfl⟩

/-- The context can be read anywhere. -/
theorem takes_flags {later : List Piece} :
    Attempt.flags.Takes setting [] later fun read => read = setting.flags :=
  fun place split => ⟨setting.flags, place, rfl, rfl, split⟩

/-- The node that is read is the one before the place. -/
theorem reads_subject :
    subject.Reads setting fun read consumed => setting.subject = some read ∧ consumed = [] := by
  intro place value after _ success
  unfold subject at success
  split at success
  case h_1 node given =>
    obtain ⟨rfl, rfl⟩ := Prod.mk.inj (Except.ok.inj success)
    exact ⟨[], rfl, given, rfl⟩
  case h_2 => simp at success

/-- The node before the place can be read where there is one. -/
theorem takes_subject {node : Node} {later : List Piece} (given : setting.subject = some node) :
    subject.Takes setting [] later fun read => read = node := by
  intro place split
  exact ⟨node, place, by simp [subject, given], rfl, split⟩

/-- A token under a condition is taken exactly if the condition holds. -/
theorem reads_tokenIf {condition : Bool} {pattern : Token → Bool} :
    (tokenIf condition pattern).Reads setting fun _ consumed =>
      if condition then ∃ shown : Token, pattern shown = true ∧ shown.piece.isLexical = true ∧
        consumed = [shown.piece]
      else consumed = [] := by
  cases condition with
  | false => exact Reads.pure rfl
  | true => exact reads_token.map fun shown consumed met => ⟨shown, met⟩

/-- A token whose condition holds is taken like any other. -/
theorem takes_tokenIf {pattern : Token → Bool} {piece : Piece} {later : List Piece}
    (fits : ∀ shown : Token, shown.piece = piece → pattern shown = true) :
    (tokenIf true pattern).Takes setting [piece] later fun _ => True :=
  (takes_token fits).map fun _ _ => trivial

/-- A token whose condition fails is not asked for. -/
theorem takes_tokenIf_false {pattern : Token → Bool} {later : List Piece} :
    (tokenIf false pattern).Takes setting [] later fun _ => True :=
  Takes.pure trivial

/-- A token whose condition holds is rejected where its pattern misses. -/
theorem rejects_tokenIf {pattern : Token → Bool} {pieces : List Piece}
    (misses : Misses pattern pieces) : (tokenIf true pattern).Rejects setting pieces := by
  intro place split
  change (some <$> token pattern) setting place = _
  rw [← bind_pure_comp]
  exact (rejects_token misses).bind place split

/-- Looking at the next token takes nothing. -/
theorem reads_nextMatches {pattern : Token → Bool} :
    (nextMatches pattern).Reads setting fun _ consumed => consumed = [] := by
  intro place value after _ success
  obtain ⟨_, rfl⟩ := Prod.mk.inj (Except.ok.inj success)
  exact ⟨[], rfl, rfl⟩

/-- The next token is seen where the pattern fits it. -/
theorem takes_nextMatches {pattern : Token → Bool} {piece : Piece} {later : List Piece}
    (fits : ∀ shown : Token, shown.piece = piece → pattern shown = true) :
    (nextMatches pattern).Takes setting [] (piece :: later) fun found => found = true := by
  intro place split
  cases place with
  | mk index previous rest =>
    cases rest with
    | nil => simp [Place.pieces] at split
    | cons first others =>
      obtain ⟨same, _⟩ := List.cons.inj split
      exact ⟨true, _, by simp [nextMatches, fits first same], rfl, split⟩

/-- The next token is not seen where the pattern misses. -/
theorem takes_nextMatches_false {pattern : Token → Bool} {later : List Piece}
    (misses : Misses pattern later) :
    (nextMatches pattern).Takes setting [] later fun found => found = false := by
  intro place split
  exact ⟨false, place, by simp only [nextMatches, misses.of_place split], rfl, split⟩

end Conditions

end Attempt

end ShaderSource
