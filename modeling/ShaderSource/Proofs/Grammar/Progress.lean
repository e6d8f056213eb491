import ShaderSource.Grammar.Basic
import ShaderSource.Proofs.Grammar.Attempt

/-!
# How far attempts go

Reading moves forward, and not past the end of the tokens. An attempt is judged
by how many tokens it takes at the least when it succeeds, and by the failures
that it ends with: a nested list that stops at a token inside the tokens, or
levels that are used up. The judgement adds up along a sequence of attempts. So
of a repetition it is enough to know that no round goes back.
-/

namespace ShaderSource

variable {tokens : List Token}

namespace Place

/-- Behind the next token is the next position. -/
theorem advance_ofTokens {position : Nat} (inside : position < tokens.length) :
    (ofTokens tokens position).advance = ofTokens tokens (position + 1) := by
  have parts : tokens.drop position = tokens[position] :: tokens.drop (position + 1) :=
    List.drop_eq_getElem_cons inside
  have passed : tokens.take (position + 1) = tokens.take position ++ [tokens[position]] :=
    (List.take_append_getElem inside).symm
  simp only [advance, ofTokens, parts, passed, List.getLast?_concat]

/-- The next token is the one at the position. -/
theorem head?_ofTokens (tokens : List Token) (position : Nat) :
    (ofTokens tokens position).rest.head? = tokens[position]? :=
  List.head?_drop

/-- The tokens that are left at a position. -/
theorem length_ofTokens (tokens : List Token) (position : Nat) :
    (ofTokens tokens position).rest.length = tokens.length - position :=
  List.length_drop

/-- A place remembers the position it was made for. -/
theorem index_ofTokens (tokens : List Token) (position : Nat) :
    (ofTokens tokens position).index = position := rfl

end Place

/-- A way from a position to a later one over some tokens at the least, and not past the end. -/
structure Moves (tokens : List Token) (start least stop : Nat) : Prop where
  far : start + least ≤ stop
  inside : stop ≤ max start tokens.length

namespace Moves

variable {start least least' stop final : Nat}

/-- Nothing is taken by staying. -/
theorem refl (start : Nat) : Moves tokens start 0 start :=
  ⟨Nat.le_refl _, Nat.le_max_left _ _⟩

/-- What two moves take is added. -/
theorem trans (first : Moves tokens start least stop) (second : Moves tokens stop least' final) :
    Moves tokens start (least + least') final := by
  obtain ⟨far, inside⟩ := first
  obtain ⟨far', inside'⟩ := second
  exact ⟨by omega, by omega⟩

/-- A move that takes some tokens takes fewer ones at the least. -/
theorem weaken (moves : Moves tokens start least stop) (fewer : least' ≤ least) :
    Moves tokens start least' stop :=
  ⟨Nat.le_trans (Nat.add_le_add_left fewer _) moves.far, moves.inside⟩

/-- Over a token. -/
theorem next (inside : start < tokens.length) : Moves tokens start 1 (start + 1) :=
  ⟨Nat.le_refl _, Nat.le_trans inside (Nat.le_max_right _ _)⟩

/-- Fewer tokens are left exactly behind a later position. -/
theorem rest_lt_iff (moves : Moves tokens start least stop) :
    (Place.ofTokens tokens stop).rest.length < (Place.ofTokens tokens start).rest.length ↔
      start < stop := by
  obtain ⟨far, inside⟩ := moves
  rw [Place.length_ofTokens, Place.length_ofTokens]
  omega

/-- A step that moves on is told by the tokens that are left and by the position alike. -/
theorem ite_rest_lt {α : Type} (moves : Moves tokens start least stop) (further last : α) :
    (if (Place.ofTokens tokens stop).rest.length < (Place.ofTokens tokens start).rest.length
      then further else last) =
      if (Place.ofTokens tokens stop).index = start then last else further := by
  have far := moves.far
  rw [Place.index_ofTokens]
  by_cases moved : start < stop
  · rw [if_pos (moves.rest_lt_iff.mpr moved), if_neg (by omega)]
  · rw [if_neg fun shorter => moved (moves.rest_lt_iff.mp shorter), if_pos (by omega)]

end Moves

/-- The failure of a list that is read in some contexts up to a terminator: it stops at a token
    that is not the terminator. -/
def Stopped (tokens : List Token) (flags : Flags) (terminator : Option String)
    (error : ParseError) : Prop :=
  ∃ position token, tokens[position]? = some token ∧ terminator ≠ some token.text ∧
    error = .tokens ((Place.ofTokens tokens position).unexpected flags terminator)

/-- The failures that end a reading from inside: the statements of a body stop, or the levels are
    used up. -/
inductive Fatal (tokens : List Token) : ParseError → Prop
  | stopped {error : ParseError} (stops : Stopped tokens .statement (some "\x7d") error) :
      Fatal tokens error
  | exhausted (position : Nat) :
      Fatal tokens (.depth ⟨maxDepth, (Place.ofTokens tokens position).span⟩)

/-- What an attempt may come to that begins at a position and takes some tokens at the least. -/
inductive Reaches {α : Type} (tokens : List Token) (start least : Nat) :
    Except Reject (α × Place) → Prop
  | mismatch : Reaches tokens start least (.error .mismatch)
  | fatal {error : ParseError} (fails : Fatal tokens error) :
      Reaches tokens start least (.error (.fatal error))
  | built {value : α} {stop : Nat} (moves : Moves tokens start least stop) :
      Reaches tokens start least (.ok (value, .ofTokens tokens stop))

namespace Reaches

variable {α : Type} {start stop least least' : Nat} {outcome : Except Reject (α × Place)}

/-- The least number of tokens may be lowered. -/
theorem weaken (reaches : Reaches tokens start least outcome) (fewer : least' ≤ least) :
    Reaches tokens start least' outcome := by
  cases reaches with
  | mismatch => exact .mismatch
  | fatal fails => exact .fatal fails
  | built moves => exact .built (moves.weaken fewer)

/-- What an attempt comes to behind some tokens that were taken before. -/
theorem behind (reaches : Reaches tokens stop least' outcome)
    (moves : Moves tokens start least stop) : Reaches tokens start (least + least') outcome := by
  cases reaches with
  | mismatch => exact .mismatch
  | fatal fails => exact .fatal fails
  | built moves' => exact .built (moves.trans moves')

end Reaches

/-- How many tokens a node takes at the least that is read in some contexts. The clauses of a loop
    may be empty. -/
def Flags.least (flags : Flags) : Nat := if flags.contains .simple then 0 else 1

/-- What a reader may come to. -/
inductive Finds (tokens : List Token) (start least : Nat) :
    Except ParseError (Option (Node × Place)) → Prop
  | nothing : Finds tokens start least (.ok none)
  | fatal {error : ParseError} (fails : Fatal tokens error) :
      Finds tokens start least (.error error)
  | found {node : Node} {stop : Nat} (moves : Moves tokens start least stop) :
      Finds tokens start least (.ok (some (node, .ofTokens tokens stop)))

/-- A reader of nodes that moves forward. -/
def NodeReader.Advances (tokens : List Token) (reader : NodeReader) : Prop :=
  ∀ flags subject start,
    Finds tokens start flags.least (reader flags subject (.ofTokens tokens start))

namespace Attempt

variable {α β σ : Type} {setting : Setting} {least least' : Nat}

/-- An attempt that takes some tokens at the least, wherever it begins. -/
def Advances (tokens : List Token) (setting : Setting) (least : Nat) (attempt : Attempt α) :
    Prop :=
  ∀ start, Reaches tokens start least (attempt setting (.ofTokens tokens start))

section Sequence

variable {attempt : Attempt α} {next : α → Attempt β}

/-- The least number of tokens may be lowered. -/
theorem Advances.weaken (advances : attempt.Advances tokens setting least)
    (fewer : least' ≤ least) : attempt.Advances tokens setting least' :=
  fun start => (advances start).weaken fewer

/-- What takes some tokens takes one. -/
theorem Advances.takesOne (advances : attempt.Advances tokens setting least)
    (some : 0 < least) : attempt.Advances tokens setting 1 := advances.weaken some

/-- A value that is given takes no token. -/
theorem advances_pure {value : α} : (pure value : Attempt α).Advances tokens setting 0 :=
  fun start => .built (.refl start)

/-- A sequence takes what its parts take. -/
theorem Advances.bind (leading : attempt.Advances tokens setting least)
    (following : ∀ value, (next value).Advances tokens setting least') :
    (attempt >>= next).Advances tokens setting (least + least') := by
  intro start
  rw [bind_apply]
  have first := leading start
  generalize attempt setting (.ofTokens tokens start) = outcome at first ⊢
  cases first with
  | mismatch => exact .mismatch
  | fatal fails => exact .fatal fails
  | @built value stop moves => exact (following value stop).behind moves

/-- A change of the result takes no token. -/
theorem Advances.map {change : α → β} (advances : attempt.Advances tokens setting least) :
    (change <$> attempt).Advances tokens setting least := by
  rw [← bind_pure_comp]
  exact advances.bind fun _ => advances_pure

end Sequence

section Tokens

variable {pattern : Token → Bool}

/-- The next token, if there is one, leads to the next position. -/
theorem rest_ofTokens (tokens : List Token) (start : Nat) : (Place.ofTokens tokens start).rest = [] ∨
    ∃ token rest, (Place.ofTokens tokens start).rest = token :: rest ∧
      (Place.ofTokens tokens start).advance = Place.ofTokens tokens (start + 1) ∧
        Moves tokens start 1 (start + 1) := by
  cases shown : (Place.ofTokens tokens start).rest with
  | nil => exact .inl rfl
  | cons token rest =>
    have length := Place.length_ofTokens tokens start
    have inside : start < tokens.length := by
      rw [shown, List.length_cons] at length
      omega
    exact .inr ⟨token, rest, rfl, Place.advance_ofTokens inside, .next inside⟩

/-- A token that is read is one token. -/
theorem advances_token : (token pattern).Advances tokens setting 1 := by
  intro start
  unfold token
  rcases rest_ofTokens tokens start with shown | ⟨token, rest, shown, behind, moves⟩
  · simp only [shown]
    exact .mismatch
  · simp only [shown, behind]
    split
    case isTrue => exact .built moves
    case isFalse => exact .mismatch

/-- An optional token may be none. -/
theorem advances_token? : (token? pattern).Advances tokens setting 0 := by
  intro start
  unfold token?
  rcases rest_ofTokens tokens start with shown | ⟨token, rest, shown, behind, moves⟩
  · simp only [shown]
    exact .built (.refl start)
  · simp only [shown, behind]
    split
    case isTrue => exact .built (moves.weaken (Nat.zero_le 1))
    case isFalse => exact .built (.refl start)

/-- A token under a condition may be none. -/
theorem advances_tokenIf {condition : Bool} :
    (tokenIf condition pattern).Advances tokens setting 0 := by
  cases condition with
  | false => exact advances_pure
  | true => exact advances_token.map.weaken (Nat.zero_le 1)

/-- Looking at the next token takes none. -/
theorem advances_nextMatches : (nextMatches pattern).Advances tokens setting 0 :=
  fun start => .built (.refl start)

end Tokens

/-- Asking for the context takes no token. -/
theorem advances_flags : Attempt.flags.Advances tokens setting 0 :=
  fun start => .built (.refl start)

/-- Asking for the node before the place takes no token. -/
theorem advances_subject : subject.Advances tokens setting 0 := by
  intro start
  unfold subject
  split
  case h_1 => exact .built (.refl start)
  case h_2 => exact .mismatch

/-- A check takes no token. -/
theorem advances_validate {condition : Bool} :
    (validate condition).Advances tokens setting 0 := by
  intro start
  unfold validate
  split
  case isTrue => exact .built (.refl start)
  case isFalse => exact .mismatch

/-- Looking up a word takes no token. -/
theorem advances_spelled {word : Except SpellingError α} :
    (spelled word).Advances tokens setting 0 := by
  intro start
  unfold spelled
  split
  case h_1 => exact .built (.refl start)
  case h_2 => exact .mismatch

/-- A repetition in terms of positions: a round that moves on is followed by the next one, and one
    that does not is the last. -/
theorem repeatWhen_eq {going : Place → Bool} {part : Nat → σ → Attempt σ}
    (advances : ∀ rounds made, (part rounds made).Advances tokens setting least)
    (rounds : Nat) (made : σ) (start : Nat) :
    repeatWhen going part rounds made setting (.ofTokens tokens start) =
      if going (.ofTokens tokens start) then
        match part rounds made setting (.ofTokens tokens start) with
        | .error reject => .error reject
        | .ok (made, after) =>
          if after.index = start then .ok (made, after)
          else repeatWhen going part (rounds + 1) made setting after
      else .ok (made, .ofTokens tokens start) := by
  rw [repeatWhen]
  split
  case isFalse => rfl
  case isTrue =>
    have round := advances rounds made start
    generalize part rounds made setting (.ofTokens tokens start) = outcome at round ⊢
    cases round with
    | mismatch => rfl
    | fatal => rfl
    | built moves => exact moves.ite_rest_lt _ _

/-- Rounds that never go back do not go back together. The induction is on the number of tokens
    left, of which each round but the last takes some. -/
theorem advances_repeatWhen {going : Place → Bool} {part : Nat → σ → Attempt σ}
    (advances : ∀ rounds made, (part rounds made).Advances tokens setting least)
    (rounds : Nat) (made : σ) :
    (repeatWhen going part rounds made).Advances tokens setting 0 := by
  intro start
  induction size : tokens.length - start using Nat.strongRecOn
    generalizing rounds made start with
  | ind bound inductionHypothesis =>
    rw [repeatWhen_eq advances]
    split
    case isFalse => exact .built (.refl start)
    case isTrue =>
      have round := advances rounds made start
      generalize part rounds made setting (.ofTokens tokens start) = outcome at round ⊢
      cases round with
      | mismatch => exact .mismatch
      | fatal fails => exact .fatal fails
      | @built made' stop moves =>
        dsimp only
        by_cases last : (Place.ofTokens tokens stop).index = start
        · rw [if_pos last]
          exact .built (moves.weaken (Nat.zero_le least))
        · rw [if_neg last]
          rw [Place.index_ofTokens] at last
          obtain ⟨far, inside⟩ := moves
          have later := inductionHypothesis (tokens.length - stop) (by omega) (rounds + 1) made'
            stop rfl
          exact later.behind ⟨Nat.le_trans (Nat.le_add_right _ _) far, inside⟩

/-- A repetition up to a token may make no round. -/
theorem advances_repeatUntil {pattern : Token → Bool} {part : Nat → σ → Attempt σ} {made : σ}
    (advances : ∀ rounds made, (part rounds made).Advances tokens setting least) :
    (repeatUntil pattern part made).Advances tokens setting 0 :=
  advances_repeatWhen advances 0 made

/-- A repetition as long as a token follows may make no round. -/
theorem advances_repeatWhile {pattern : Token → Bool} {part : Nat → σ → Attempt σ} {made : σ}
    (advances : ∀ rounds made, (part rounds made).Advances tokens setting least) :
    (repeatWhile pattern part made).Advances tokens setting 0 :=
  advances_repeatWhen advances 0 made

end Attempt

namespace NodeReader.Advances

variable {reader : NodeReader}

/-- A list in terms of positions: a node that moves on is followed by the next one, and one that
    does not is left out and ends the list. -/
theorem readNodes_eq (advances : reader.Advances tokens) (flags : Flags) (start : Nat) :
    readNodes reader flags (.ofTokens tokens start) =
      match reader flags none (.ofTokens tokens start) with
      | .error error => .error error
      | .ok none => .ok ([], .ofTokens tokens start)
      | .ok (some (node, after)) =>
        if after.index = start then .ok ([], .ofTokens tokens start)
        else
          match readNodes reader flags after with
          | .error error => .error error
          | .ok (nodes, final) => .ok (node :: nodes, final) := by
  rw [readNodes]
  have first := advances flags none start
  generalize reader flags none (.ofTokens tokens start) = outcome at first ⊢
  cases first with
  | nothing => rfl
  | fatal => rfl
  | found moves => exact moves.ite_rest_lt _ _

/-- What reading nodes one by one may come to: each of them takes a token. -/
theorem readNodes_moves (advances : reader.Advances tokens) (flags : Flags) (start : Nat) :
    (∃ nodes stop, readNodes reader flags (.ofTokens tokens start) =
        .ok (nodes, .ofTokens tokens stop) ∧ Moves tokens start nodes.length stop) ∨
      ∃ error, readNodes reader flags (.ofTokens tokens start) = .error error ∧
        Fatal tokens error := by
  induction size : tokens.length - start using Nat.strongRecOn generalizing start with
  | ind bound inductionHypothesis =>
    rw [advances.readNodes_eq]
    have first := advances flags none start
    generalize reader flags none (.ofTokens tokens start) = outcome at first ⊢
    cases first with
    | nothing => exact .inl ⟨[], start, rfl, .refl start⟩
    | @fatal error fails => exact .inr ⟨error, rfl, fails⟩
    | @found node stop moves =>
      dsimp only
      by_cases last : (Place.ofTokens tokens stop).index = start
      · rw [if_pos last]
        exact .inl ⟨[], start, rfl, .refl start⟩
      · rw [if_neg last]
        rw [Place.index_ofTokens] at last
        obtain ⟨far, inside⟩ := moves
        rcases inductionHypothesis (tokens.length - stop) (by omega) stop rfl with
          ⟨nodes, final, read, moves⟩ | ⟨error, failed, fails⟩
        · have whole : Moves tokens start (1 + nodes.length) final :=
            Moves.trans ⟨by omega, inside⟩ moves
          refine .inl ⟨node :: nodes, final, by rw [read], ?_⟩
          rwa [Nat.add_comm] at whole
        · exact .inr ⟨error, by rw [failed], fails⟩

end NodeReader.Advances

/-- Where its nodes end, a list ends as well, or it stops at the token there. -/
theorem readList_of_readNodes {reader : NodeReader} {flags : Flags} {place : Place}
    {nodes : List Node} {stop : Nat}
    (read : readNodes reader flags place = .ok (nodes, .ofTokens tokens stop))
    (terminator : Option String) :
    (readList reader flags terminator place = .ok (nodes, .ofTokens tokens stop) ∧
      (tokens.length ≤ stop ∨
        ∃ token, tokens[stop]? = some token ∧ terminator = some token.text)) ∨
    (readList reader flags terminator place =
        .error (.tokens ((Place.ofTokens tokens stop).unexpected flags terminator)) ∧
      ∃ token, tokens[stop]? = some token ∧ terminator ≠ some token.text) := by
  have head := Place.head?_ofTokens tokens stop
  have length := Place.length_ofTokens tokens stop
  unfold readList
  rw [read]
  cases shown : (Place.ofTokens tokens stop).rest with
  | nil =>
    rw [shown, List.length_nil] at length
    exact .inl ⟨by simp only [shown], .inl (by omega)⟩
  | cons token rest =>
    rw [shown, List.head?_cons] at head
    by_cases ended : terminator = some token.text
    · exact .inl ⟨by simp only [shown, if_pos ended], .inr ⟨token, head.symm, ended⟩⟩
    · exact .inr ⟨by simp only [shown, if_neg ended], token, head.symm, ended⟩

/-- What reading a list may come to. It ends at the end of the tokens or at its terminator. -/
theorem NodeReader.Advances.readList_moves {reader : NodeReader} (advances : reader.Advances tokens)
    (flags : Flags) (terminator : Option String) (start : Nat) :
    (∃ nodes stop, readList reader flags terminator (.ofTokens tokens start) =
        .ok (nodes, .ofTokens tokens stop) ∧ Moves tokens start nodes.length stop ∧
        (tokens.length ≤ stop ∨
          ∃ token, tokens[stop]? = some token ∧ terminator = some token.text)) ∨
      ∃ error, readList reader flags terminator (.ofTokens tokens start) = .error error ∧
        (Fatal tokens error ∨ Stopped tokens flags terminator error) := by
  rcases advances.readNodes_moves flags start with
    ⟨nodes, stop, read, moves⟩ | ⟨error, failed, fails⟩
  · rcases readList_of_readNodes read terminator with ⟨ended, ends⟩ | ⟨stopped, token, next, other⟩
    · exact .inl ⟨nodes, stop, ended, moves, ends⟩
    · exact .inr ⟨_, stopped, .inr ⟨stop, token, next, other, rfl⟩⟩
  · exact .inr ⟨error, by rw [readList, failed], .inl fails⟩

namespace Attempt

variable {setting : Setting}

/-- A nested node takes what its contexts ask for. -/
theorem advances_node (flags : Flags) (nested : setting.nested.Advances tokens) :
    (node flags).Advances tokens setting flags.least := by
  intro start
  unfold node
  have result := nested flags none start
  generalize setting.nested flags none (.ofTokens tokens start) = outcome at result ⊢
  cases result with
  | nothing => exact .mismatch
  | fatal fails => exact .fatal fails
  | found moves => exact .built moves

/-- The statements of a body stop at a token, or at the end of the body. -/
theorem advances_nodes (nested : setting.nested.Advances tokens) :
    (nodes .statement "\x7d").Advances tokens setting 0 := by
  intro start
  unfold nodes
  rcases nested.readList_moves .statement (some "\x7d") start with
    ⟨nodes, stop, read, moves, _⟩ | ⟨error, failed, fails⟩
  · rw [read]
    exact .built (moves.weaken (Nat.zero_le _))
  · rw [failed]
    rcases fails with fails | stops
    · exact .fatal fails
    · exact .fatal (.stopped stops)

/-- What is written behind a value takes a token, so that no guard is needed to go on until
    nothing more fits. -/
theorem trailingChain_eq (nested : setting.nested.Advances tokens) (value : Node) (start : Nat) :
    trailingChain value setting (.ofTokens tokens start) =
      match trailing? value setting (.ofTokens tokens start) with
      | .error reject => .error reject
      | .ok (none, after) => .ok (value, after)
      | .ok (some longer, after) => trailingChain longer setting after := by
  rw [trailingChain]
  have result := nested .trailing (some value) start
  unfold trailing?
  generalize setting.nested .trailing (some value) (.ofTokens tokens start) = outcome at result ⊢
  cases result with
  | nothing => rfl
  | fatal => rfl
  | @found node stop moves =>
    have further : start < stop := moves.far
    simp only [moves.rest_lt_iff, if_pos further]

/-- A chain of links may be empty. -/
theorem advances_trailingChain (nested : setting.nested.Advances tokens) (value : Node) :
    (trailingChain value).Advances tokens setting 0 := by
  intro start
  induction size : tokens.length - start using Nat.strongRecOn generalizing value start with
  | ind bound inductionHypothesis =>
    rw [trailingChain_eq nested]
    have result := nested .trailing (some value) start
    unfold trailing?
    generalize setting.nested .trailing (some value) (.ofTokens tokens start) = outcome
      at result ⊢
    cases result with
    | nothing => exact .built (.refl start)
    | fatal fails => exact .fatal fails
    | @found node stop moves =>
      have far : start + 1 ≤ stop := moves.far
      have inside := moves.inside
      have later := inductionHypothesis (tokens.length - stop) (by omega) node stop rfl
      exact later.behind ⟨Nat.le_of_succ_le far, inside⟩

end Attempt

end ShaderSource
