import ShaderSource.Proofs.Grammar.Progress
import ShaderSource.Proofs.Grammar.Rules
import ShaderSource.Tree.Equality

/-!
# Reading ends for every table of rules

A table puts the rules of shaders in any order, as often and in whatever contexts
one likes. Reading ends for all of them. No rule is tried deeper than the limit,
and every rule takes a token, but for an empty clause. So all repetitions move on
with every round, and what is written behind a value does so without a guard.
-/

namespace ShaderSource

namespace Production

open Attempt

variable {tokens : List Token} {setting : Setting}

/-- How many tokens a rule takes at the least in some contexts. Only an empty statement can take
    none, as a clause of a loop. -/
def least : Production → Flags → Nat
  | emptyStatement, flags => flags.least
  | _, _ => 1

/-- No rule takes fewer tokens than its contexts ask for. -/
theorem flags_least_le (production : Production) (flags : Flags) :
    flags.least ≤ production.least flags := by
  have atMost : flags.least ≤ 1 := by
    unfold Flags.least
    split <;> decide
  cases production with
  | emptyStatement => exact Nat.le_refl _
  | _ => exact atMost

/-- A word is one token. -/
theorem advances_word {text : String} : (word text).Advances tokens setting 1 :=
  advances_token

/-- A name is one token. -/
theorem advances_nameText : nameText.Advances tokens setting 1 :=
  advances_token.bind fun _ => advances_pure

/-- The end of a statement may be left to its context. -/
theorem advances_endStatement : endStatement.Advances tokens setting 0 :=
  advances_flags.bind fun _ => advances_tokenIf.bind fun _ => advances_pure

/-- An assignment operator is one token. -/
theorem advances_assignOp : assignOp.Advances tokens setting 1 :=
  advances_token.bind fun _ => advances_spelled

/-- The operator of a step is one token. -/
theorem advances_crementOp : crementOp.Advances tokens setting 1 :=
  advances_token.bind fun _ => advances_spelled

/-- The first round of a list has no separator. -/
theorem advances_separator {rounds : Nat} : (separator rounds).Advances tokens setting 0 :=
  advances_tokenIf.bind fun _ => advances_pure

/-- A qualifier may be missing. -/
theorem advances_readQualifier : readQualifier.Advances tokens setting 0 := by
  change Advances tokens setting (0 + 0) _
  refine advances_token?.bind ?_
  intro shown
  cases shown with
  | none => exact advances_pure
  | some _ => exact advances_spelled.map

/-- A parameter has a type and a name. -/
theorem advances_readParam (rounds : Nat) (params : List Param) :
    (readParam rounds params).Advances tokens setting 2 :=
  advances_separator.bind fun _ => advances_nameText.bind fun _ => advances_nameText.bind fun _ =>
    advances_pure

section Nested

variable (nested : setting.nested.Advances tokens)

include nested

/-- Behind a value another rule takes a token. -/
theorem advances_value : (node .value).Advances tokens setting 1 :=
  advances_node .value nested

/-- An operand is not empty. -/
theorem advances_operand : (node .operand).Advances tokens setting 1 :=
  advances_node .operand nested

/-- A single statement is not empty. -/
theorem advances_single : (node .single).Advances tokens setting 1 :=
  advances_node .single nested

/-- A clause of a loop may be empty. -/
theorem advances_clause : (node .simple).Advances tokens setting 0 :=
  advances_node .simple nested

/-- A body has its two braces. -/
theorem advances_body : body.Advances tokens setting 2 :=
  advances_word.bind fun _ => (advances_nodes nested).bind fun _ => advances_word.bind fun _ =>
    advances_pure

/-- A guarded body has two parentheses, two braces and a condition that is not empty. -/
theorem advances_guarded : guarded.Advances tokens setting 5 :=
  advances_word.bind fun _ => (advances_value nested).bind fun _ => advances_word.bind fun _ =>
    (advances_body nested).bind fun _ => advances_pure

/-- An initial value may be missing. -/
theorem advances_readInitial : readInitial.Advances tokens setting 0 := by
  change Advances tokens setting (0 + 0) _
  refine advances_token?.bind ?_
  intro shown
  cases shown with
  | none => exact advances_pure
  | some _ => exact (advances_value nested).map.weaken (Nat.zero_le 1)

/-- A further branch has its keyword and the braces of its body. -/
theorem advances_readElse (rounds : Nat) (branches : List Branch × Option (List Node)) :
    (readElse rounds branches).Advances tokens setting 3 := by
  change Advances tokens setting (0 + (1 + (0 + 2))) _
  refine advances_validate.bind fun _ => advances_word.bind fun _ => advances_token?.bind ?_
  intro shown
  cases shown with
  | none => exact (advances_body nested).bind fun _ => advances_pure
  | some _ => exact ((advances_guarded nested).bind fun _ => advances_pure).weaken (by decide)

/-- A return statement has its keyword and its end. -/
theorem advances_readReturn : readReturn.Advances tokens setting 2 := by
  change Advances tokens setting (1 + (0 + 1)) _
  refine advances_word.bind fun _ => advances_nextMatches.bind ?_
  intro alone
  cases alone with
  | true => exact advances_pure.bind fun _ => advances_word.bind fun _ => advances_pure
  | false =>
    exact ((advances_value nested).map.bind fun _ => advances_word.bind fun _ =>
      advances_pure).weaken (by decide)

/-- An operand that is read is not empty. -/
theorem advances_readOperand : readOperand.Advances tokens setting 1 :=
  (advances_single nested).bind (advances_trailingChain nested)

/-- A round of a chain takes an operator and an operand. -/
theorem advances_readLink (rounds : Nat) (links : List BinaryOp × List Node) :
    (readLink rounds links).Advances tokens setting 2 :=
  advances_token.bind fun _ => advances_spelled.bind fun _ =>
    (advances_readOperand nested).bind fun _ => advances_pure

/-- An expression is not empty. -/
theorem advances_readExpression : readExpression.Advances tokens setting 1 := by
  change Advances tokens setting (1 + (0 + 0)) _
  refine (advances_readOperand nested).bind fun first => advances_flags.bind fun flags => ?_
  cases flags.contains .operand with
  | true => exact advances_pure
  | false =>
    change Advances tokens setting (0 + 0) _
    refine (advances_repeatWhile (advances_readLink nested)).bind ?_
    intro links
    obtain ⟨ops, operands⟩ := links
    dsimp only
    cases ops.isEmpty with
    | true => exact advances_pure
    | false => exact advances_pure

/-- An argument is not empty. -/
theorem advances_readArgument (rounds : Nat) (args : List Node) :
    (readArgument rounds args).Advances tokens setting 1 :=
  advances_separator.bind fun _ => (advances_value nested).bind fun _ => advances_pure

end Nested

/-- As a clause an empty statement leaves everything where it is, otherwise it takes its `;`. -/
theorem advances_readEmptyStatement :
    readEmptyStatement.Advances tokens setting setting.flags.least := by
  intro start
  unfold readEmptyStatement Flags.least
  rw [bind_apply]
  dsimp only [Attempt.flags]
  cases setting.flags.contains .simple with
  | true =>
    have clause : Advances tokens setting 0 (do
        validate (← nextMatches (Token.hasTextAmong [";", ")"]))
        return Node.empty) :=
      advances_nextMatches.bind fun _ => advances_validate.bind fun _ => advances_pure
    exact clause start
  | false =>
    have written : Advances tokens setting 1 (do
        let _ ← word ";"
        return Node.empty) := advances_word.bind fun _ => advances_pure
    exact written start

/-- Every rule moves forward, and over a token if it is not an empty clause. -/
theorem advances_build (nested : setting.nested.Advances tokens) (production : Production) :
    production.build.Advances tokens setting (production.least setting.flags) := by
  cases production with
  | precision =>
    exact (advances_word.bind fun _ => advances_nameText.bind fun _ => advances_nameText.bind
      fun _ => advances_word.bind fun _ => advances_pure).takesOne (by decide)
  | declaration =>
    exact (advances_readQualifier.bind fun _ => advances_flags.bind fun _ =>
      advances_validate.bind fun _ => advances_nameText.bind fun _ => advances_nameText.bind
        fun _ => (advances_readInitial nested).bind fun _ => advances_endStatement.bind
          fun _ => advances_pure).takesOne (by decide)
  | function =>
    exact (advances_nameText.bind fun _ => advances_nameText.bind fun _ => advances_word.bind
      fun _ => (advances_repeatUntil advances_readParam).bind fun _ => advances_word.bind
        fun _ => (advances_body nested).bind fun _ => advances_pure).takesOne (by decide)
  | assignment =>
    exact (advances_nameText.bind fun _ => advances_assignOp.bind fun _ =>
      (advances_value nested).bind fun _ => advances_endStatement.bind fun _ =>
        advances_pure).takesOne (by decide)
  | propertyAssignment =>
    exact ((advances_value nested).bind fun _ => advances_validate.bind fun _ =>
      advances_assignOp.bind fun _ => (advances_value nested).bind fun _ =>
        advances_endStatement.bind fun _ => advances_pure).takesOne (by decide)
  | conditional =>
    exact (advances_word.bind fun _ => (advances_guarded nested).bind fun _ =>
      (advances_repeatWhile (advances_readElse nested)).bind fun _ =>
        advances_pure).takesOne (by decide)
  | loop =>
    exact (advances_word.bind fun _ => advances_word.bind fun _ =>
      (advances_clause nested).bind fun _ => advances_word.bind fun _ =>
        (advances_clause nested).bind fun _ => advances_word.bind fun _ =>
          (advances_clause nested).bind fun _ => advances_word.bind fun _ =>
            (advances_body nested).bind fun _ => advances_pure).takesOne (by decide)
  | returning => exact (advances_readReturn nested).takesOne (by decide)
  | breaking =>
    exact (advances_word.bind fun _ => advances_word.bind fun _ =>
      advances_pure).takesOne (by decide)
  | expressionStatement =>
    exact (advances_value nested).bind fun _ => advances_endStatement.bind fun _ => advances_pure
  | emptyStatement => exact advances_readEmptyStatement
  | float => exact advances_token.bind fun _ => advances_pure
  | int => exact advances_token.bind fun _ => advances_pure
  | reference => exact advances_nameText.bind fun _ => advances_pure
  | parenthesized =>
    exact (advances_word.bind fun _ => (advances_value nested).bind fun _ =>
      advances_word.bind fun _ => advances_pure).takesOne (by decide)
  | unary =>
    exact (advances_token.bind fun _ => advances_spelled.bind fun _ =>
      (advances_operand nested).bind fun _ => advances_pure).takesOne (by decide)
  | leadingCrement =>
    exact (advances_crementOp.bind fun _ => (advances_operand nested).bind fun _ =>
      advances_validate.bind fun _ => advances_pure).takesOne (by decide)
  | expression => exact advances_readExpression nested
  | call =>
    exact (advances_subject.bind fun _ => advances_word.bind fun _ =>
      (advances_repeatUntil (advances_readArgument nested)).bind fun _ => advances_word.bind
        fun _ => advances_pure).takesOne (by decide)
  | property =>
    exact (advances_subject.bind fun _ => advances_word.bind fun _ => advances_token.bind
      fun _ => advances_pure).takesOne (by decide)
  | trailingCrement =>
    exact advances_subject.bind fun _ => advances_crementOp.bind fun _ =>
      advances_validate.bind fun _ => advances_pure

end Production

namespace Grammar

open Attempt

variable {grammar : Grammar} {tokens : List Token}

/-- A grammar with the rules of a table: their names, their contexts and the productions that build
    their nodes. -/
def ofTable (table : List (String × Flags × Production)) : Grammar :=
  ⟨table.map fun (name, flags, production) => ⟨name, flags, production.build⟩⟩

/-- A grammar of which each rule builds a production, in whatever contexts. -/
def Built (grammar : Grammar) : Prop :=
  ∀ rule ∈ grammar.rules, ∃ production : Production, rule.build = production.build

/-- The rules of a table are the builders of its productions. -/
theorem mem_ofTable {table : List (String × Flags × Production)} {rule : Rule} :
    rule ∈ (ofTable table).rules ↔
      ∃ name flags production, (name, flags, production) ∈ table ∧
        ⟨name, flags, production.build⟩ = rule := by
  simp [ofTable]

/-- The grammar of a table consists of productions. -/
theorem built_ofTable (table : List (String × Flags × Production)) : (ofTable table).Built := by
  intro rule member
  obtain ⟨name, flags, production, _, rfl⟩ := mem_ofTable.mp member
  exact ⟨production, rfl⟩

/-- The grammar of the shading language consists of productions. -/
theorem built_glsl : glsl.Built := by
  intro rule member
  obtain ⟨production, _, rfl⟩ := List.mem_map.mp member
  exact ⟨production, rfl⟩

/-- A reader at a depth within the limit runs the rules of a grammar there, and what they read in
    turn is one level deeper. Deeper than the limit no rule is run: reading fails. -/
inductive Bounded (grammar : Grammar) : Nat → NodeReader → Prop
  | level {depth : Nat} {nested : NodeReader} (within : depth ≤ maxDepth)
      (deeper : Bounded grammar (depth + 1) nested) :
      Bounded grammar depth fun flags subject place =>
        firstFit ⟨flags, subject, depth, nested⟩ place
          (grammar.rules.filter (·.flags.intersects flags))
  | spent : Bounded grammar (maxDepth + 1) fun _ _ place => .error (.depth ⟨maxDepth, place.span⟩)

/-- Where a rule of a grammar may be run. -/
structure Running (grammar : Grammar) (setting : Setting) : Prop where
  within : setting.depth ≤ maxDepth
  deeper : grammar.Bounded (setting.depth + 1) setting.nested

/-- With some levels left, a reader is as much above the limit. -/
theorem bounded_reader (grammar : Grammar) {levels : Nat} (enough : levels ≤ maxDepth + 1) :
    grammar.Bounded (maxDepth + 1 - levels) (grammar.reader levels) := by
  induction levels with
  | zero => exact .spent
  | succ levels inductionHypothesis =>
    have next : maxDepth + 1 - levels = maxDepth - levels + 1 := by omega
    have deeper := inductionHypothesis (by omega)
    rw [next] at deeper
    rw [Nat.add_sub_add_right]
    exact .level (Nat.sub_le _ _) deeper

/-- The outermost reader starts at depth zero. -/
theorem bounded_topReader (grammar : Grammar) : grammar.Bounded 0 grammar.topReader := by
  have bounded := grammar.bounded_reader (Nat.le_refl (maxDepth + 1))
  rwa [Nat.sub_self] at bounded

/-- The first of some rules that move forward does so. -/
theorem finds_firstFit {setting : Setting} {rules : List Rule} {least : Nat}
    (each : ∀ rule ∈ rules, rule.build.Advances tokens setting least) (start : Nat) :
    Finds tokens start least (firstFit setting (.ofTokens tokens start) rules) := by
  induction rules with
  | nil => exact .nothing
  | cons rule rules inductionHypothesis =>
    rw [List.forall_mem_cons] at each
    have first := each.1 start
    rw [firstFit]
    generalize rule.build setting (.ofTokens tokens start) = outcome at first ⊢
    cases first with
    | mismatch => exact inductionHypothesis each.2
    | fatal fails => exact .fatal fails
    | built moves => exact .found moves

/-- Every reader of a grammar moves forward. The induction is on the levels that are left: without
    any, reading fails, and with one more it runs rules with the readers below. -/
theorem Bounded.advances (built : grammar.Built) {depth : Nat} {reader : NodeReader}
    (bounded : grammar.Bounded depth reader) : reader.Advances tokens := by
  induction bounded with
  | spent => exact fun _ _ start => .fatal (.exhausted start)
  | @level depth nested _ _ inductionHypothesis =>
    intro flags subject start
    refine finds_firstFit (fun rule member => ?_) start
    obtain ⟨production, same⟩ := built rule (List.mem_filter.mp member).1
    have advances : production.build.Advances tokens ⟨flags, subject, depth, nested⟩
        (production.least flags) := production.advances_build inductionHypothesis
    rw [same]
    exact advances.weaken (production.flags_least_le flags)

/-- What reading one node from a position may come to: no rule fits, reading fails, or a row of the
    table builds the node over some tokens. -/
inductive ReadsOne (table : List (String × Flags × Production)) (tokens : List Token)
    (flags : Flags) (subject : Option Node) (start : Nat) :
    Except ParseError (Option (Node × Place)) → Prop
  | nothing : ReadsOne table tokens flags subject start (.ok none)
  | fatal {error : ParseError} (fails : Fatal tokens error) :
      ReadsOne table tokens flags subject start (.error error)
  | built {name : String} {contexts : Flags} {production : Production} {nested : NodeReader}
      {node : Node} {stop : Nat} (listed : (name, contexts, production) ∈ table)
      (eligible : contexts.intersects flags = true) (deeper : (ofTable table).Bounded 1 nested)
      (success : production.build ⟨flags, subject, 0, nested⟩ (.ofTokens tokens start) =
        .ok (node, .ofTokens tokens stop))
      (moves : Moves tokens start (production.least flags) stop) :
      ReadsOne table tokens flags subject start (.ok (some (node, .ofTokens tokens stop)))

/-- What reading a list from a position may come to: it ends at the end of the tokens or at its
    terminator, over a token for each node at the least, or it fails inside or stops at a token. -/
inductive ReadsAll (tokens : List Token) (flags : Flags) (terminator : Option String)
    (start : Nat) : Except ParseError (List Node × Place) → Prop
  | ended {nodes : List Node} {stop : Nat} (moves : Moves tokens start nodes.length stop)
      (ends : tokens.length ≤ stop ∨
        ∃ token, tokens[stop]? = some token ∧ terminator = some token.text) :
      ReadsAll tokens flags terminator start (.ok (nodes, .ofTokens tokens stop))
  | fatal {error : ParseError} (fails : Fatal tokens error) :
      ReadsAll tokens flags terminator start (.error error)
  | stopped {error : ParseError} (stops : Stopped tokens flags terminator error) :
      ReadsAll tokens flags terminator start (.error error)

/-- Reading from the tokens by the rules of a table ends. -/
structure Terminates (table : List (String × Flags × Production)) (tokens : List Token) : Prop where
  one : ∀ position flags subject, ReadsOne table tokens flags subject position
    ((ofTable table).parseOne tokens position flags subject)
  all : ∀ position flags terminator, ReadsAll tokens flags terminator position
    ((ofTable table).parseAll tokens position flags terminator)
  /-- No rule is run deeper than the limit. -/
  bounded : (ofTable table).Bounded 0 (ofTable table).topReader
  /-- Wherever a production is run, it moves forward, and only an empty clause stays in place. -/
  advances : ∀ setting, (ofTable table).Running setting → ∀ production : Production,
    production.build.Advances tokens setting (production.least setting.flags)
  /-- A node of a list that stays in place ends the list. -/
  nodes : ∀ depth reader, (ofTable table).Bounded depth reader → ∀ flags start,
    readNodes reader flags (.ofTokens tokens start) =
      match reader flags none (.ofTokens tokens start) with
      | .error error => .error error
      | .ok none => .ok ([], .ofTokens tokens start)
      | .ok (some (node, after)) =>
        if after.index = start then .ok ([], .ofTokens tokens start)
        else
          match readNodes reader flags after with
          | .error error => .error error
          | .ok (nodes, final) => .ok (node :: nodes, final)
  /-- A round of a repetition that stays in place is the last. -/
  rounds : ∀ (σ : Type) (setting : Setting) (going : Place → Bool) (part : Nat → σ → Attempt σ),
    (∀ count made, (part count made).Advances tokens setting 0) → ∀ count made start,
      repeatWhen going part count made setting (.ofTokens tokens start) =
        if going (.ofTokens tokens start) then
          match part count made setting (.ofTokens tokens start) with
          | .error reject => .error reject
          | .ok (made, after) =>
            if after.index = start then .ok (made, after)
            else repeatWhen going part (count + 1) made setting after
        else .ok (made, .ofTokens tokens start)
  /-- The rounds of the productions move forward: parameters, branches, operands and arguments. -/
  parts : ∀ setting, (ofTable table).Running setting →
    (∀ count params, (Production.readParam count params).Advances tokens setting 1) ∧
    (∀ count branches, (Production.readElse count branches).Advances tokens setting 1) ∧
    (∀ count links, (Production.readLink count links).Advances tokens setting 1) ∧
    (∀ count args, (Production.readArgument count args).Advances tokens setting 1)
  /-- What is written behind a value is followed without a guard, and each time over a token. -/
  chain : ∀ setting, (ofTable table).Running setting → ∀ value start,
    (∀ longer after, trailing? value setting (.ofTokens tokens start) = .ok (some longer, after) →
      ∃ stop, after = .ofTokens tokens stop ∧ Moves tokens start 1 stop) ∧
    trailingChain value setting (.ofTokens tokens start) =
      match trailing? value setting (.ofTokens tokens start) with
      | .error reject => .error reject
      | .ok (none, after) => .ok (value, after)
      | .ok (some longer, after) => trailingChain longer setting after

/-- One node is built by a row of the table, and in how many tokens is up to its production. -/
theorem readsOne (table : List (String × Flags × Production)) (tokens : List Token)
    (position : Nat) (flags : Flags) (subject : Option Node) :
    ReadsOne table tokens flags subject position
      ((ofTable table).parseOne tokens position flags subject) := by
  have built := built_ofTable table
  have top : (ofTable table).topReader.Advances tokens :=
    (ofTable table).bounded_topReader.advances built
  have deeper := (ofTable table).bounded_reader (Nat.le_succ maxDepth)
  rw [Nat.add_sub_cancel_left] at deeper
  have nested : ((ofTable table).reader maxDepth).Advances tokens := deeper.advances built
  have finds := top flags subject position
  unfold parseOne
  cases found : (ofTable table).topReader flags subject (.ofTokens tokens position) with
  | error error =>
    rw [found] at finds
    cases finds with
    | fatal fails => exact .fatal fails
  | ok result =>
    cases result with
    | none => exact .nothing
    | some result =>
      rw [topReader, reader_succ] at found
      obtain ⟨rule, member, success⟩ := exists_of_firstFit found
      obtain ⟨inside, eligible⟩ := List.mem_filter.mp member
      obtain ⟨name, contexts, production, listed, rfl⟩ := mem_ofTable.mp inside
      have advances : production.build.Advances tokens
          ((ofTable table).setting maxDepth flags subject) (production.least flags) :=
        production.advances_build nested
      have reaches := advances position
      dsimp only at success
      rw [success] at reaches
      cases reaches with
      | built moves => exact .built listed eligible deeper success moves

/-- A list moves on over all of its nodes. -/
theorem readsAll (table : List (String × Flags × Production)) (tokens : List Token)
    (position : Nat) (flags : Flags) (terminator : Option String) :
    ReadsAll tokens flags terminator position
      ((ofTable table).parseAll tokens position flags terminator) := by
  have top : (ofTable table).topReader.Advances tokens :=
    (ofTable table).bounded_topReader.advances (built_ofTable table)
  unfold parseAll
  rcases top.readList_moves flags terminator position with
    ⟨nodes, stop, read, moves, ends⟩ | ⟨error, failed, fails | stops⟩
  · rw [read]
    exact .ended moves ends
  · rw [failed]
    exact .fatal fails
  · rw [failed]
    exact .stopped stops

/-- What is written behind a value takes a token. -/
theorem moves_of_trailing? {setting : Setting} (nested : setting.nested.Advances tokens)
    {value longer : Node} {start : Nat} {after : Place}
    (found : trailing? value setting (.ofTokens tokens start) = .ok (some longer, after)) :
    ∃ stop, after = .ofTokens tokens stop ∧ Moves tokens start 1 stop := by
  have finds := nested .trailing (some value) start
  unfold trailing? at found
  generalize setting.nested .trailing (some value) (.ofTokens tokens start) = outcome
    at finds found
  cases finds with
  | nothing => simp at found
  | fatal => simp at found
  | @found node stop moves =>
    obtain ⟨_, rfl⟩ := Prod.mk.inj (Except.ok.inj found)
    exact ⟨stop, rfl, moves⟩

/-- Reading ends for every table of rules, every list of tokens and every position, also past the
    end of the tokens. No rule is run deeper than the limit. A node takes a token if it is not an
    empty clause, so every round of every loop moves on or is the last one. -/
theorem terminates_ofTable (table : List (String × Flags × Production)) (tokens : List Token) :
    Terminates table tokens := by
  have advances : ∀ {depth reader}, (ofTable table).Bounded depth reader →
      reader.Advances tokens := fun bounded => bounded.advances (built_ofTable table)
  exact {
    one := readsOne table tokens
    all := readsAll table tokens
    bounded := (ofTable table).bounded_topReader
    advances := fun setting running => Production.advances_build (advances running.deeper)
    nodes := fun depth reader bounded => (advances bounded).readNodes_eq
    rounds := fun σ setting going part forward => repeatWhen_eq forward
    parts := by
      intro setting running
      have nested := advances running.deeper
      exact ⟨fun count params => (Production.advances_readParam count params).takesOne (by decide),
        fun count branches =>
          (Production.advances_readElse nested count branches).takesOne (by decide),
        fun count links => (Production.advances_readLink nested count links).takesOne (by decide),
        Production.advances_readArgument nested⟩
    chain := by
      intro setting running value start
      have nested := advances running.deeper
      exact ⟨fun longer after => moves_of_trailing? nested, trailingChain_eq nested value start⟩ }

/-- A rule that begins by reading itself uses the levels up. -/
example : (ofTable [("again", .value, .expressionStatement)]).parseOne [] 0 .value none =
    .error (.depth ⟨maxDepth, ⟨0, 0⟩⟩) := by
  decide +kernel

/-- An empty clause leaves the reader where it is. -/
example : (ofTable [("empty", .simple, .emptyStatement)]).parseOne [⟨.marker, ";", ⟨0, 1⟩⟩] 0
    .simple none = .ok (some (.empty, .ofTokens [⟨.marker, ";", ⟨0, 1⟩⟩] 0)) := rfl

end Grammar

end ShaderSource
