import ShaderSource.Proofs.Token.Line
import ShaderSource.Proofs.Tree.Opening

/-!
# The pieces of a program open no comment

A slash in a program is a division, and an operand follows it. No operand begins
with a star, and no program ends with a slash. So the pieces of a program open
no comment, even without any layout between them.
-/

namespace ShaderSource

namespace NoComment

variable {pieces later : List Piece}

/-- What opens no comment does not end with a slash, so nothing can join it. -/
theorem append (plain : NoComment pieces) (further : NoComment later) :
    NoComment (pieces ++ later) := by
  induction plain with
  | done => exact further
  | other other _ inductionHypothesis => exact .other other inductionHypothesis
  | apart apart _ inductionHypothesis => exact .apart apart inductionHypothesis

/-- Groups of pieces that open no comment open none one behind the other. -/
theorem flatten {groups : List (List Piece)} (each : ∀ group ∈ groups, NoComment group) :
    NoComment groups.flatten := by
  induction groups with
  | nil => exact .done
  | cons group groups inductionHypothesis =>
    rw [List.forall_mem_cons] at each
    exact each.1.append (inductionHypothesis each.2)

/-- A word does not open a comment with what follows. -/
theorem named {name : String} (named : Lexeme.identifierText name.toList = true)
    (plain : NoComment pieces) : NoComment (.word name :: pieces) := by
  refine .other ?_ plain
  rintro rfl
  exact Bool.noConfusion named

/-- A name does not open a comment with what follows. -/
theorem name {name : String} (known : isNameText name = true) (plain : NoComment pieces) :
    NoComment (.word name :: pieces) :=
  named (Piece.plain_word known).lexical plain

/-- The end of a statement opens no comment. -/
theorem statementEnd (closed : Bool) : NoComment (Piece.statementEnd closed) := by
  cases closed with
  | false => exact .done
  | true => exact .other (by decide) .done

/-- Groups that open no comment open none with commas between them. -/
theorem listed {groups : List (List Piece)} (each : ∀ group ∈ groups, NoComment group) :
    NoComment (Piece.listed groups) := by
  cases groups with
  | nil => exact .done
  | cons first others =>
    rw [List.forall_mem_cons] at each
    refine each.1.append (flatten ?_)
    intro group member
    obtain ⟨other, known, rfl⟩ := List.mem_map.mp member
    exact .other (by decide) (each.2 other known)

/-- Statements that open no comment open none between braces. -/
theorem braced {statements : List (List Piece)} (each : ∀ group ∈ statements, NoComment group) :
    NoComment (Piece.braced statements) :=
  .other (by decide) ((flatten each).append (.other (by decide) .done))

/-- A condition and the body behind it open none if their pieces do not. -/
theorem guarded {condition : List Piece} {statements : List (List Piece)}
    (guard : NoComment condition) (each : ∀ group ∈ statements, NoComment group) :
    NoComment (Piece.guarded condition statements) :=
  .other (by decide) (guard.append (.other (by decide) (braced each)))

/-- An operand keeps the slash of a division away from a star. -/
theorem link (op : BinaryOp) (opens : OpensExpression pieces) (plain : NoComment pieces) :
    NoComment (op.piece :: pieces) := by
  obtain ⟨first, rest, rfl, lexical, opens, _⟩ := opens
  exact .apart (first.head_ne_of_opensOperand (by decide) (by decide) lexical opens) plain

/-- The operands behind the first one of a chain, each with the operator in front of it. -/
theorem links (ops : List BinaryOp) {groups : List (List Piece)}
    (opens : ∀ group ∈ groups, OpensExpression group) (each : ∀ group ∈ groups, NoComment group) :
    NoComment (List.zipWith (fun op operand => op.piece :: operand) ops groups).flatten := by
  induction groups generalizing ops with
  | nil => simpa using done
  | cons group groups inductionHypothesis =>
    cases ops with
    | nil => exact .done
    | cons op ops =>
      rw [List.forall_mem_cons] at opens each
      exact (link op opens.1 each.1).append (inductionHypothesis ops opens.2 each.2)

/-- A chain of operators opens no comment: behind a slash an expression begins, and not with a
    star. -/
theorem chain (ops : List BinaryOp) {groups : List (List Piece)}
    (opens : ∀ group ∈ groups, OpensExpression group) (each : ∀ group ∈ groups, NoComment group) :
    NoComment (chainPieces ops groups) := by
  cases groups with
  | nil => exact .done
  | cons first others =>
    rw [List.forall_mem_cons] at opens each
    exact each.1.append (links ops opens.2 each.2)

end NoComment

/-- The pieces of a node open no comment, with its `;` and without it. -/
def Node.CommentFree (node : Node) : Prop := ∀ closed, NoComment (node.pieces closed)

namespace Node.CommentFree

/-- The pieces of each of some nodes. -/
theorem list {nodes : List Node} (each : ∀ node ∈ nodes, node.CommentFree) :
    ∀ group ∈ Node.piecesList nodes, NoComment group := by
  rw [Node.piecesList_eq_map]
  intro group member
  obtain ⟨node, known, rfl⟩ := List.mem_map.mp member
  exact each node known true

/-- A chain of operators is free of comments if its operands are. -/
theorem binary (ops : List BinaryOp) {operands : List Node}
    (shaped : ∀ operand ∈ operands, Shaped .operand operand)
    (parts : ∀ operand ∈ operands, operand.CommentFree) :
    (Node.binary ops operands).CommentFree := by
  refine fun _ => .chain ops ?_ (list parts)
  rw [Node.piecesList_eq_map]
  intro group member
  obtain ⟨operand, known, rfl⟩ := List.mem_map.mp member
  exact (shaped operand known).opensExpression rfl

/-- A declaration is free of comments if its value is. -/
theorem declaration {ty name : String} {initial : Option Node} (qualifier : Option Qualifier)
    (typed : isNameText ty = true) (named : isNameText name = true)
    (value : ∀ node, initial = some node → node.CommentFree) :
    (Node.declaration qualifier ty name initial).CommentFree := by
  intro closed
  have first : NoComment (Node.initialPieces initial) := by
    cases initial with
    | none => exact .done
    | some node => exact .other (by decide) (value node rfl true)
  have declared : NoComment (.word ty :: .word name :: Node.initialPieces initial ++
      Piece.statementEnd closed) :=
    .name typed (.name named (first.append (.statementEnd closed)))
  simp only [Node.pieces, List.append_assoc]
  cases qualifier with
  | none => exact declared
  | some qualifier => exact .other (by cases qualifier <;> decide) declared

/-- A conditional is free of comments if its conditions and bodies are. -/
theorem conditional {condition : Node} {body : List Node} {elseIfs : List Branch}
    {elseBody : Option (List Node)} (guard : condition.CommentFree)
    (first : ∀ node ∈ body, node.CommentFree)
    (guards : ∀ branch ∈ elseIfs, branch.condition.CommentFree)
    (bodies : ∀ branch ∈ elseIfs, ∀ node ∈ branch.body, node.CommentFree)
    (last : ∀ nodes, elseBody = some nodes → ∀ node ∈ nodes, node.CommentFree) :
    (Node.conditional condition body elseIfs elseBody).CommentFree := by
  intro closed
  have branches : NoComment (Branch.piecesList elseIfs) := by
    rw [Branch.piecesList_eq_flatMap]
    apply NoComment.flatten
    intro group member
    obtain ⟨⟨condition, body⟩, known, rfl⟩ := List.mem_map.mp member
    exact .other (by decide) (.other (by decide)
      (.guarded (guards _ known true) (list (bodies _ known))))
  have otherwise : NoComment (Node.elsePieces elseBody) := by
    cases elseBody with
    | none => exact .done
    | some nodes => exact .other (by decide) (.braced (list (last nodes rfl)))
  simp only [Node.pieces, List.append_assoc]
  exact .other (by decide)
    ((NoComment.guarded (guard true) (list first)).append (branches.append otherwise))

/-- A loop is free of comments if its clauses and its body are. -/
theorem loop {init check increment : Node} {body : List Node} (first : init.CommentFree)
    (second : check.CommentFree) (third : increment.CommentFree)
    (repeated : ∀ node ∈ body, node.CommentFree) :
    (Node.loop init check increment body).CommentFree := by
  intro closed
  have clauses : NoComment (init.pieces false ++ .semicolon :: (check.pieces false ++
      .semicolon :: (increment.pieces false ++ .bracket ")" ::
        Piece.braced (Node.piecesList body)))) := by
    apply (first false).append (.other (by decide) _)
    apply (second false).append (.other (by decide) _)
    exact (third false).append (.other (by decide) (.braced (list repeated)))
  simp only [Node.pieces, List.append_assoc, List.cons_append]
  exact .other (by decide) (.other (by decide) clauses)

/-- A return statement is free of comments if its value is. -/
theorem returning {result : Option Node} (value : ∀ node, result = some node → node.CommentFree) :
    (Node.returning result).CommentFree := by
  intro closed
  cases result with
  | none => exact .other (by decide) (.other (by decide) .done)
  | some node => exact .other (by decide) ((value node rfl true).append (.other (by decide) .done))

/-- A function is free of comments if its body is. -/
theorem function {returnType name : String} {params : List Param} {body : List Node}
    (typed : isNameText returnType = true) (named : isNameText name = true)
    (declared : ∀ param ∈ params, isNameText param.ty = true ∧ isNameText param.name = true)
    (performed : ∀ node ∈ body, node.CommentFree) :
    (Node.function returnType name params body).CommentFree := by
  intro closed
  have each : ∀ group ∈ params.map Param.pieces, NoComment group := by
    intro group member
    obtain ⟨param, known, rfl⟩ := List.mem_map.mp member
    exact .name (declared param known).1 (.name (declared param known).2 .done)
  simp only [Node.pieces, List.cons_append]
  apply NoComment.name typed (.name named (.other (by decide) _))
  exact (NoComment.listed each).append (.other (by decide) (.braced (list performed)))

end Node.CommentFree

/-- The pieces of every node of a program open no comment. -/
theorem Shaped.commentFree {category : Category} {node : Node} (shaped : Shaped category node) :
    node.CommentFree := by
  induction shaped with
  | float written | int written =>
    refine fun _ => .other ?_ .done
    rintro rfl
    exact Bool.noConfusion written
  | reference named => exact fun _ => .name named .done
  | parenthesized _ inner =>
    exact fun _ => .other (by decide) ((inner true).append (.other (by decide) .done))
  | call _ _ called given =>
    intro closed
    simp only [Node.pieces, List.append_assoc]
    apply (called true).append
    apply NoComment.other (by decide)
    exact (NoComment.listed (Node.CommentFree.list given)).append (.other (by decide) .done)
  | property _ named owner =>
    exact fun _ => (owner true).append (.other (by decide) (.named named .done))
  | @trailingCrement op _ _ _ stepped =>
    exact fun _ => (stepped true).append (.other (by cases op <;> decide) .done)
  | @unary op _ _ inner => exact fun _ => .other (by cases op <;> decide) (inner true)
  | @leadingCrement op _ _ _ stepped =>
    exact fun _ => .other (by cases op <;> decide) (stepped true)
  | @binary ops _ _ _ shaped parts => exact .binary ops shaped parts
  | declaration typed named _ value => exact .declaration none typed named value
  | @qualified qualifier _ _ _ typed named _ value =>
    exact .declaration (some qualifier) typed named value
  | @assignment _ op _ named _ assigned =>
    exact fun closed => .name named
      (.other (by cases op <;> decide) ((assigned true).append (.statementEnd closed)))
  | @propertyAssignment _ op _ _ _ _ owner assigned =>
    intro closed
    simp only [Node.pieces, List.append_assoc]
    apply (owner true).append
    exact .other (by cases op <;> decide) ((assigned true).append (.statementEnd closed))
  | expression _ inner => exact fun closed => (inner true).append (.statementEnd closed)
  | empty => exact NoComment.statementEnd
  | conditional _ _ _ _ _ guard body guards bodies last =>
    exact .conditional guard body guards bodies last
  | loop _ _ _ _ first second third body => exact .loop first second third body
  | returning _ value => exact .returning value
  | breaking => exact fun _ => .other (by decide) (.other (by decide) .done)
  | precision graded typed =>
    exact fun _ => .other (by decide) (.name graded (.name typed (.other (by decide) .done)))
  | function typed named declared _ body => exact .function typed named declared body
  | ofPrimary _ found | ofOperand _ found | ofClause _ found | ofStatement _ found => exact found

/-- The pieces of a program open no comment. -/
theorem ShapedProgram.noComment {nodes : List Node} (shaped : ShapedProgram nodes) :
    NoComment (programPieces nodes) := by
  apply NoComment.flatten
  intro group member
  obtain ⟨node, known, rfl⟩ := List.mem_map.mp member
  exact (shaped node known).commentFree true

end ShaderSource
