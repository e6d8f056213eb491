import ShaderSource.Proofs.Grammar.Entry
import ShaderSource.Proofs.Grammar.Rules

/-!
# The rules of shaders side by side

Every rule of the grammar of shaders keeps two readings together, whatever they
are compared by. The parts of the rules are followed in the order in which they
are written. A rule takes a token or reads a node before anything else, so it is
enough that the readings stand together behind it. Only an empty clause of a
loop takes nothing.
-/

namespace ShaderSource

/-- Every rule of the grammar keeps two readings together. -/
def Grammar.Steady (grammar : Grammar) : Prop :=
  ∀ comparison : Comparison, ∀ rule ∈ grammar.rules, comparison.Keeps rule.build

namespace Production

open Comparison

variable {comparison : Comparison} {entry : comparison.Entry}

/-- Both readings see a word, or neither does. -/
theorem parallel_word {text : String} :
    comparison.Parallel Token.Alike (word text) (word text) :=
  parallel_token (Token.placeless_hasText text)

/-- A name is read in both readings, with one text. -/
theorem parallel_nameText : comparison.Parallel Eq nameText nameText :=
  (parallel_token Token.placeless_isName).bindAlike fun _ _ alike => parallel_pureAlike alike.text

/-- The end of a statement is asked for in both readings alike. -/
theorem parallel_endStatement : comparison.Parallel Eq endStatement endStatement :=
  parallel_flags.bind fun _ =>
    (parallel_tokenIf (Token.placeless_hasText ";")).skip parallel_pure

/-- The statements of a body are read together. -/
theorem parallel_body : comparison.Parallel Eq body body :=
  parallel_word.skip (parallel_nodes.bind fun _ => parallel_word.skip parallel_pure)

/-- A condition and the body behind it are read together. -/
theorem parallel_guarded : comparison.Parallel Eq guarded guarded :=
  parallel_word.skip (parallel_node.bind fun _ => parallel_word.skip
    (parallel_body.bind fun _ => parallel_pure))

/-- An assignment operator is read as the same one. -/
theorem parallel_assignOp : comparison.Parallel Eq assignOp assignOp :=
  (parallel_token (Token.placeless_hasKind .assign)).bindAlike fun _ _ alike =>
    parallel_spelled (congrArg AssignOp.ofSpelling alike.text)

/-- The operator of a step is read as the same one. -/
theorem parallel_crementOp : comparison.Parallel Eq crementOp crementOp :=
  (parallel_token (Token.placeless_hasKind .crement)).bindAlike fun _ _ alike =>
    parallel_spelled (congrArg CrementOp.ofSpelling alike.text)

/-- The comma of a list is read together, in the same rounds. -/
theorem parallel_separator {rounds : Nat} :
    comparison.Parallel Eq (separator rounds) (separator rounds) :=
  (parallel_tokenIf (Token.placeless_hasText ",")).skip parallel_pure

/-- An initial value is read in both readings, or missing in both. -/
theorem parallel_readInitial : comparison.Parallel Eq readInitial readInitial := by
  apply (parallel_token? (Token.placeless_hasText "=")).bindAlike
  intro shown shown' alike
  cases alike with
  | none => exact parallel_pure
  | some _ => exact parallel_node.map

/-- A parameter is added to the same ones. -/
theorem parallel_readParam (rounds : Nat) (params : List Param) :
    comparison.Parallel Eq (readParam rounds params) (readParam rounds params) :=
  parallel_separator.bind fun _ => parallel_nameText.bind fun _ => parallel_nameText.bind fun _ =>
    parallel_pure

/-- A further branch is added to the same ones. -/
theorem parallel_readElse (rounds : Nat) (branches : List Branch × Option (List Node)) :
    comparison.Parallel Eq (readElse rounds branches) (readElse rounds branches) := by
  refine parallel_validate.bind fun _ => parallel_word.skip ?_
  apply (parallel_token? (Token.placeless_hasText "if")).bindAlike
  intro shown shown' alike
  cases alike with
  | none => exact parallel_body.bind fun _ => parallel_pure
  | some _ => exact parallel_guarded.bind fun _ => parallel_pure

/-- An empty statement is read together. -/
theorem parallel_readEmptyStatement :
    comparison.Parallel Eq readEmptyStatement readEmptyStatement := by
  apply parallel_flags.bind
  intro flags
  cases flags.contains .simple with
  | true =>
    exact (parallel_nextMatches (Token.placeless_hasTextAmong _)).bind fun _ =>
      parallel_validate.bind fun _ => parallel_pure
  | false => exact parallel_word.skip parallel_pure

/-- An operand is read together with the links behind it. -/
theorem parallel_readOperand : comparison.Parallel Eq readOperand readOperand :=
  parallel_node.bind parallel_trailingChain

/-- An operator and its operand are added to the same ones. -/
theorem parallel_readLink (rounds : Nat) (links : List BinaryOp × List Node) :
    comparison.Parallel Eq (readLink rounds links) (readLink rounds links) := by
  apply (parallel_token Token.placeless_isBinaryOp).bindAlike
  intro shown shown' alike
  apply (parallel_spelled (congrArg BinaryOp.ofSpelling alike.text)).bind
  exact fun _ => parallel_readOperand.bind fun _ => parallel_pure

/-- An argument is added to the same ones. -/
theorem parallel_readArgument (rounds : Nat) (args : List Node) :
    comparison.Parallel Eq (readArgument rounds args) (readArgument rounds args) :=
  parallel_separator.bind fun _ => parallel_node.bind fun _ => parallel_pure

section Openings

open Entry

variable {β : Type}

/-- An attempt that begins with a word comes to the same if what follows stays together. -/
theorem opens_word {text : String} {following : Attempt β}
    (parallel : comparison.Parallel Eq following following) :
    entry.Opens (word text >>= fun _ => following) :=
  opens_token (Token.placeless_hasText text) fun _ _ _ => parallel

/-- An attempt that begins with a name comes to the same if what follows stays together. -/
theorem opens_nameText {next : String → Attempt β}
    (following : ∀ name, comparison.Parallel Eq (next name) (next name)) :
    entry.Opens (nameText >>= next) := by
  rw [nameText, bind_assoc]
  apply opens_token Token.placeless_isName
  intro shown shown' alike
  rw [pure_bind, pure_bind, alike.text]
  exact following _

/-- An attempt that begins with the operator of a step comes to the same if what follows stays
    together. -/
theorem opens_crementOp {next : CrementOp → Attempt β}
    (following : ∀ op, comparison.Parallel Eq (next op) (next op)) :
    entry.Opens (crementOp >>= next) := by
  rw [crementOp, bind_assoc]
  apply opens_token (Token.placeless_hasKind .crement)
  intro shown shown' alike
  exact (parallel_spelled (congrArg CrementOp.ofSpelling alike.text)).bind following

/-- A declaration takes its qualifier first, or its type if it has none. -/
theorem opens_readDeclaration : entry.Opens readDeclaration := by
  rw [readDeclaration, readQualifier, bind_assoc]
  apply opens_token? (Token.placeless_hasTextAmong _)
  · intro shown shown' alike
    refine (parallel_spelled (congrArg Qualifier.ofSpelling alike.text)).map.bind fun _ => ?_
    exact parallel_flags.bind fun _ => parallel_validate.bind fun _ => parallel_nameText.bind
      fun _ => parallel_nameText.bind fun _ => parallel_readInitial.bind fun _ =>
        parallel_endStatement.bind fun _ => parallel_pure
  · dsimp only
    rw [pure_bind]
    refine opens_flags fun _ => opens_validate ?_
    exact opens_nameText fun _ => parallel_nameText.bind fun _ => parallel_readInitial.bind
      fun _ => parallel_endStatement.bind fun _ => parallel_pure

/-- A return statement begins with its keyword. -/
theorem opens_readReturn : entry.Opens readReturn := by
  apply opens_word
  apply (parallel_nextMatches (Token.placeless_hasText ";")).bind
  intro alone
  cases alone with
  | true =>
    exact parallel_pure.bind fun _ => parallel_word.skip parallel_pure
  | false =>
    exact parallel_node.map.bind fun _ => parallel_word.skip parallel_pure

/-- A unary expression begins with its operator. -/
theorem opens_readUnary : entry.Opens readUnary := by
  apply opens_token (Token.placeless_hasTextAmong _)
  intro shown shown' alike
  apply (parallel_spelled (congrArg UnaryOp.ofSpelling alike.text)).bind
  exact fun _ => parallel_node.bind fun _ => parallel_pure

/-- An expression begins with its first operand. -/
theorem opens_readExpression : entry.Opens readExpression := by
  rw [readExpression, readOperand, bind_assoc]
  refine opens_node rfl fun first => (parallel_trailingChain first).bind fun first =>
    parallel_flags.bind fun flags => ?_
  cases flags.contains .operand with
  | true => exact parallel_pure
  | false =>
    apply (parallel_repeatWhile Token.placeless_isBinaryOp parallel_readLink).bind
    intro links
    obtain ⟨ops, operands⟩ := links
    dsimp only
    cases ops.isEmpty with
    | true => exact parallel_pure
    | false => exact parallel_pure

/-- Every rule takes a token or reads a node first, but for an empty statement. The rules of what
    is written behind a value ask for it before. -/
theorem opens_build {production : Production} (other : production ≠ emptyStatement) :
    entry.Opens production.build := by
  cases production with
  | precision =>
    exact opens_word (parallel_nameText.bind fun _ => parallel_nameText.bind fun _ =>
      parallel_word.skip parallel_pure)
  | declaration => exact opens_readDeclaration
  | function =>
    exact opens_nameText fun _ => parallel_nameText.bind fun _ => parallel_word.skip
      ((parallel_repeatUntil (Token.placeless_hasText ")") parallel_readParam).bind fun _ =>
        parallel_word.skip (parallel_body.bind fun _ => parallel_pure))
  | assignment =>
    exact opens_nameText fun _ => parallel_assignOp.bind fun _ => parallel_node.bind
      fun _ => parallel_endStatement.bind fun _ => parallel_pure
  | propertyAssignment =>
    exact opens_node rfl fun _ => parallel_validate.bind fun _ => parallel_assignOp.bind
      fun _ => parallel_node.bind fun _ => parallel_endStatement.bind fun _ => parallel_pure
  | conditional =>
    exact opens_word (parallel_guarded.bind fun _ =>
      (parallel_repeatWhile (Token.placeless_hasText "else") parallel_readElse).bind fun _ =>
        parallel_pure)
  | loop =>
    exact opens_word (parallel_word.skip (parallel_node.bind fun _ => parallel_word.skip
      (parallel_node.bind fun _ => parallel_word.skip (parallel_node.bind fun _ =>
        parallel_word.skip (parallel_body.bind fun _ => parallel_pure)))))
  | returning => exact opens_readReturn
  | breaking => exact opens_word (parallel_word.skip parallel_pure)
  | expressionStatement =>
    exact opens_node rfl fun _ => parallel_endStatement.bind fun _ => parallel_pure
  | emptyStatement => exact absurd rfl other
  | float =>
    exact opens_token (Token.placeless_hasKind .float) fun _ _ alike =>
      parallel_pureAlike (congrArg Node.float alike.text)
  | int =>
    exact opens_token (Token.placeless_hasKind .integer) fun _ _ alike =>
      parallel_pureAlike (congrArg Node.int alike.text)
  | reference => exact opens_nameText fun _ => parallel_pure
  | parenthesized =>
    exact opens_word (parallel_node.bind fun _ => parallel_word.skip parallel_pure)
  | unary => exact opens_readUnary
  | leadingCrement =>
    exact opens_crementOp fun _ => parallel_node.bind fun _ => parallel_validate.bind
      fun _ => parallel_pure
  | expression => exact opens_readExpression
  | call =>
    exact opens_subject fun _ => opens_word
      ((parallel_repeatUntil (Token.placeless_hasText ")") parallel_readArgument).bind fun _ =>
        parallel_word.skip parallel_pure)
  | property =>
    exact opens_subject fun value => opens_word
      ((parallel_token (Token.placeless_hasKind .identifier)).bindAlike fun _ _ alike =>
        parallel_pureAlike (congrArg (Node.property value) alike.text))
  | trailingCrement =>
    exact opens_subject fun _ => opens_crementOp fun _ => parallel_validate.bind fun _ =>
      parallel_pure

end Openings

/-- Every rule of the grammar of shaders keeps two readings together. -/
theorem keeps_build (production : Production) : comparison.Keeps production.build := by
  by_cases other : production = emptyStatement
  · subst other
    exact parallel_readEmptyStatement.keeps
  · exact (opens_build other).keeps

end Production

namespace Grammar

/-- With any number of levels a reader stays together with itself, if it wants levels together.
    The induction is on the levels: without any, reading wants levels at all places. -/
theorem Steady.readers {grammar : Grammar} (steady : grammar.Steady) {comparison : Comparison}
    (wanting : ∀ place other, comparison.places place other →
      comparison.failures (.depth ⟨maxDepth, place.span⟩) (.depth ⟨maxDepth, other.span⟩))
    (levels : Nat) : comparison.Readers (grammar.reader levels) (grammar.reader levels) := by
  induction levels with
  | zero => exact fun _ _ place other together => .failed (wanting place other together)
  | succ levels inductionHypothesis =>
    intro flags subject place place' together
    have settings : comparison.Settings (grammar.setting levels flags subject)
        (grammar.setting levels flags subject) := ⟨rfl, inductionHypothesis⟩
    exact Comparison.results_firstFit fun rule member =>
      steady comparison rule (List.mem_filter.mp member).1 _ _ settings rfl place place' together

end Grammar

/-- A grammar with the rules of the grammar of shaders keeps two readings together. -/
theorem Grammar.Arranged.steady {grammar : Grammar} [grammar.Arranged] : grammar.Steady := by
  have same : grammar.rules.Perm glsl.rules := Arranged.rules
  intro comparison rule member
  obtain ⟨production, _, rfl⟩ := List.mem_map.mp (same.mem_iff.mp member)
  exact production.keeps_build

end ShaderSource
