import ShaderSource.Proofs.Grammar.Parallel
import ShaderSource.Proofs.Grammar.Progress
import ShaderSource.Proofs.Grammar.Rejection

/-!
# Reading from the middle of a program

Reading may begin at any position of a list of tokens. The tokens before the
position decide nothing: the same is read from the tokens behind it alone, where
the position is the first one. A failure is also the same in all it says. Only a
failure where reading begins would tell the readings apart, since it would name
the token before, and there is none: every rule takes a token first, and at the
end of the tokens no rule fits.
-/

namespace ShaderSource

namespace Place

variable {place other : Place}

/-- The span of a place is known by the tokens around it. -/
theorem span_eq (previous : place.previous = other.previous) (rest : place.rest = other.rest) :
    place.span = other.span := by
  simp only [span, previousStop, previous, rest]

/-- A failure says only what is known of the tokens around its place. -/
theorem unexpected_eq (previous : place.previous = other.previous)
    (rest : place.rest = other.rest) (flags : Flags) (expected : Option String) :
    place.unexpected flags expected = other.unexpected flags expected := by
  obtain ⟨index, before, behind⟩ := place
  obtain ⟨index', before', behind'⟩ := other
  obtain rfl : before = before' := previous
  obtain rfl : behind = behind' := rest
  rfl

/-- A place in some tokens and the same place in those from a position on, where it is not the
    first one. -/
inductive Within (tokens : List Token) (position : Nat) : Place → Place → Prop
  | behind (index : Nat) : Within tokens position (.ofTokens tokens (position + (index + 1)))
      (.ofTokens (tokens.drop position) (index + 1))

/-- The place at a position and the first place in the tokens from there on. -/
inductive Begins (tokens : List Token) (position : Nat) : Place → Place → Prop
  | front : Begins tokens position (.ofTokens tokens position) (.ofTokens (tokens.drop position) 0)

/-- What is found in the tokens from a position on, as it is found among all tokens. -/
def behind (tokens : List Token) (position : Nat) (found : Node × Place) : Node × Place :=
  (found.1, .ofTokens tokens (position + found.2.index))

section Tokens

variable {tokens : List Token} {position : Nat}

/-- Behind a position the tokens are those without the ones before it. -/
theorem rest_ofTokens_drop (index : Nat) : (ofTokens tokens (position + index)).rest =
    (ofTokens (tokens.drop position) index).rest := List.drop_drop.symm

/-- Where a token is next, it says where the place stands. -/
theorem span_ofTokens_drop (inside : position < tokens.length) :
    (ofTokens tokens position).span = (ofTokens (tokens.drop position) 0).span := by
  have spans : ∀ place : Place, ∀ token rest, place.rest = token :: rest →
      place.span = token.span := by
    rintro ⟨_, _, _⟩ token rest rfl
    rfl
  have parts : (ofTokens tokens position).rest = tokens[position] :: tokens.drop (position + 1) :=
    List.drop_eq_getElem_cons inside
  rw [spans _ _ _ parts, spans _ _ _ ((rest_ofTokens_drop 0).symm.trans parts)]

/-- Both readings have the same tokens before them. -/
theorem Within.rest (within : Within tokens position place other) : place.rest = other.rest := by
  cases within with
  | behind index => exact rest_ofTokens_drop (index + 1)

/-- Behind some token of the tokens from a position on, it does not count what stands before
    them. -/
theorem Within.previous (inside : position < tokens.length)
    (within : Within tokens position place other) : place.previous = other.previous := by
  cases within with
  | behind index =>
    have some : (tokens.drop position).take (index + 1) ≠ [] := by
      simpa [List.take_eq_nil_iff] using inside
    have parts : tokens.take (position + (index + 1)) =
        tokens.take position ++ (tokens.drop position).take (index + 1) := List.take_add
    simp only [ofTokens, parts, List.getLast?_append_of_ne_nil _ some]

/-- Behind the next token, or at the end in both. -/
theorem advance_within (index : Nat) (inside : position + index < tokens.length) :
    Within tokens position (ofTokens tokens (position + index)).advance
      (ofTokens (tokens.drop position) index).advance := by
  have left : index < (tokens.drop position).length := by
    rw [List.length_drop]
    omega
  rw [advance_ofTokens inside, advance_ofTokens left]
  exact .behind index

/-- Both readings move on together. -/
theorem Within.advance (within : Within tokens position place other) :
    Within tokens position place.advance other.advance := by
  cases within with
  | behind index =>
    by_cases inside : position + (index + 1) < tokens.length
    · exact advance_within (index + 1) inside
    · have ended : ∀ place : Place, place.rest = [] → place.advance = place := by
        rintro ⟨_, _, _⟩ rfl
        rfl
      have left : (ofTokens tokens (position + (index + 1))).rest = [] :=
        List.drop_eq_nil_iff.mpr (Nat.le_of_not_lt inside)
      rw [ended _ left, ended _ ((rest_ofTokens_drop (index + 1)).symm.trans left)]
      exact .behind index

end Tokens

end Place

section Comparison

variable {tokens : List Token} {position : Nat}

/-- The comparison with a reading of the tokens from a position on, behind the first of them. All
    failures are the same. -/
def Comparison.within (inside : position < tokens.length) : Comparison where
  places := Place.Within tokens position
  failures := Eq
  excused _ := False
  pieces within := congrArg (List.map Token.piece) within.rest
  advance := Place.Within.advance
  unexpected within flags expected :=
    congrArg ParseError.tokens
      (Place.unexpected_eq (within.previous inside) within.rest flags expected)

/-- The readings begin at the position and at the first place in the tokens from there on. -/
def Comparison.Entry.begins (inside : position < tokens.length) :
    (Comparison.within inside).Entry where
  places := Place.Begins tokens position
  pieces begins := by
    cases begins with
    | front => exact congrArg (List.map Token.piece) (Place.rest_ofTokens_drop 0)
  advance begins _ := by
    cases begins with
    | front => exact Place.advance_within 0 inside

end Comparison

namespace Production

open Attempt

variable {comparison : Comparison} {entry : comparison.Entry} {setting setting' : Setting}

/-- Outside the clauses of a loop an empty statement is a `;`. -/
theorem readEmptyStatement_written (written : setting.flags.contains .simple = false) :
    readEmptyStatement setting =
      (do let _ ← word ";"; return Node.empty : Attempt Node) setting := by
  funext place
  rw [readEmptyStatement, bind_apply]
  simp only [Attempt.flags, written, Bool.false_eq_true, if_false]

/-- An empty clause of a loop is read without a token. -/
theorem readEmptyStatement_drop (clause : setting.flags.contains .simple = true)
    (tokens : List Token) (position : Nat) :
    readEmptyStatement setting (.ofTokens tokens position) =
      (readEmptyStatement setting (.ofTokens (tokens.drop position) 0)).map
        (Place.behind tokens position) := by
  have same : (Place.ofTokens tokens position).rest =
      (Place.ofTokens (tokens.drop position) 0).rest := Place.rest_ofTokens_drop 0
  simp only [readEmptyStatement, bind_apply, Attempt.flags, clause, if_true, nextMatches, validate,
    same]
  cases (Place.ofTokens (tokens.drop position) 0).rest.head?.any
      (Token.hasTextAmong [";", ")"]) with
  | true => rfl
  | false => rfl

/-- A rule that takes a token comes to the same from where two readings begin. -/
theorem outcomes_build (production : Production) (settings : entry.Settings setting setting')
    (takes : production = emptyStatement → setting.flags.contains .simple = false)
    {place place' : Place} (begins : entry.places place place') :
    comparison.Outcomes Eq (production.build setting place) (production.build setting' place') := by
  by_cases other : production = emptyStatement
  · subst other
    have written := takes rfl
    have written' : setting'.flags.contains .simple = false := settings.flags ▸ written
    rw [build, readEmptyStatement_written written, readEmptyStatement_written written']
    exact opens_word Comparison.parallel_pure setting setting' settings place place' begins
  · exact opens_build other setting setting' settings place place' begins

end Production

namespace Grammar

open Production Attempt

variable {grammar : Grammar} [grammar.Arranged] {comparison : Comparison}

/-- From where two readings begin, a reader comes to the same, but for the clauses of a loop. The
    induction is on the levels, as the readers nested in a rule may also begin there. -/
theorem results_reader (entry : comparison.Entry)
    (wanting : ∀ place other, comparison.places place other ∨ entry.places place other →
      comparison.failures (.depth ⟨maxDepth, place.span⟩) (.depth ⟨maxDepth, other.span⟩))
    (levels : Nat) (flags : Flags) (other : flags.contains .simple = false)
    (subject : Option Node) {place place' : Place} (begins : entry.places place place') :
    comparison.Results (Option.Rel (comparison.Together Eq))
      (grammar.reader levels flags subject place) (grammar.reader levels flags subject place') := by
  induction levels generalizing flags subject place place' with
  | zero => exact .failed (wanting place place' (.inr begins))
  | succ levels inductionHypothesis =>
    rw [reader_succ, reader_succ]
    have steady : grammar.Steady := Arranged.steady
    have settings : entry.Settings (grammar.setting levels flags subject)
        (grammar.setting levels flags subject) :=
      { flags := rfl
        nested := steady.readers (fun place other together => wanting place other (.inl together))
          levels
        subject := rfl
        entering := fun flags other place place' begins =>
          inductionHypothesis flags other none begins }
    refine Comparison.results_firstFit fun rule member => ?_
    obtain ⟨production, _, rfl⟩ := mem_eligible_iff.mp member
    exact production.outcomes_build settings (fun _ => other) begins

/-- At the end of the tokens no rule fits. -/
theorem topReader_end (flags : Flags) (subject : Option Node) {place : Place}
    (ended : place.rest = []) : grammar.topReader flags subject place = .ok none := by
  rw [topReader, reader_eq_none_iff]
  intro production _
  have enough : production.lookahead ≤ maxDepth := by cases production <;> decide
  have nothing : ∀ piece, ([] : List Piece).head? = some piece →
      production.opens piece = false := nofun
  apply rejects_of_opens enough nothing
  rw [Place.pieces, ended, List.map_nil]

/-- The first rule that fits is the same wherever each rule comes to the same. -/
theorem firstFit_map {setting setting' : Setting} {place place' : Place} {rules : List Rule}
    {move : Node × Place → Node × Place}
    (each : ∀ rule ∈ rules, rule.build setting place = (rule.build setting' place').map move) :
    firstFit setting place rules = (firstFit setting' place' rules).map (Option.map move) := by
  induction rules with
  | nil => rfl
  | cons rule rules inductionHypothesis =>
    rw [List.forall_mem_cons] at each
    rw [firstFit, firstFit, each.1]
    cases rule.build setting' place' with
    | ok result => rfl
    | error reject =>
      cases reject with
      | mismatch => exact inductionHypothesis each.2
      | fatal error => rfl

/-- A rule comes to the same at a position of some tokens and in the tokens from there on, with
    the same failures. -/
theorem build_drop {tokens : List Token} {position : Nat} (inside : position < tokens.length)
    (production : Production) (flags : Flags) (subject : Option Node) :
    production.build (grammar.setting maxDepth flags subject) (.ofTokens tokens position) =
      (production.build (grammar.setting maxDepth flags subject)
        (.ofTokens (tokens.drop position) 0)).map (Place.behind tokens position) := by
  by_cases clause : production = emptyStatement ∧ flags.contains .simple = true
  · obtain ⟨rfl, simple⟩ := clause
    exact readEmptyStatement_drop simple tokens position
  · have steady : grammar.Steady := Arranged.steady
    have wanting : ∀ place other, Place.Within tokens position place other ∨
        Place.Begins tokens position place other →
          ParseError.depth ⟨maxDepth, place.span⟩ = .depth ⟨maxDepth, other.span⟩ := by
      rintro place other (within | begins)
      · rw [Place.span_eq (within.previous inside) within.rest]
      · cases begins with
        | front => rw [Place.span_ofTokens_drop inside]
    have settings : (Comparison.Entry.begins inside).Settings
        (grammar.setting maxDepth flags subject) (grammar.setting maxDepth flags subject) :=
      { flags := rfl
        nested := steady.readers (fun place other together => wanting place other (.inl together))
          maxDepth
        subject := rfl
        entering := fun flags other place place' begins =>
          results_reader _ wanting maxDepth flags other none begins }
    have outcomes := production.outcomes_build settings
      (fun empty => Bool.eq_false_iff.mpr fun simple => clause ⟨empty, simple⟩) .front
    generalize production.build _ (.ofTokens tokens position) = result at outcomes ⊢
    generalize production.build _ (.ofTokens (tokens.drop position) 0) = result' at outcomes ⊢
    cases outcomes with
    | @built result result' both =>
      obtain ⟨node, after⟩ := result
      obtain ⟨node', after'⟩ := result'
      obtain ⟨rfl, within⟩ := both
      cases within with
      | behind index => rfl
    | mismatch => rfl
    | failed same => rw [same]; rfl
    | excused alone => exact alone.elim

/-- Reading one node at a position depends only on the tokens from there on. It comes to the same
    node, to none, or to the same failure as reading these tokens alone, and behind the node the
    position is added. -/
theorem glsl_parseOne_drop (tokens : List Token) (position : Nat) (flags : Flags)
    (subject : Option Node) :
    glsl.parseOne tokens position flags subject =
      (glsl.parseOne (tokens.drop position) 0 flags subject).map
        (Option.map fun (node, after) => (node, .ofTokens tokens (position + after.index))) := by
  unfold parseOne
  by_cases inside : position < tokens.length
  · refine firstFit_map fun rule member => ?_
    obtain ⟨production, _, rfl⟩ := mem_eligible_iff.mp member
    exact build_drop inside production flags subject
  · have left : tokens.drop position = [] := List.drop_eq_nil_iff.mpr (Nat.le_of_not_lt inside)
    have ended : (Place.ofTokens tokens position).rest = [] := left
    have ended' : (Place.ofTokens (tokens.drop position) 0).rest = [] := left
    rw [topReader_end flags subject ended, topReader_end flags subject ended']
    rfl

end Grammar

end ShaderSource
