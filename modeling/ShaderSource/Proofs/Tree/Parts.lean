import ShaderSource.Proofs.Tree.Children
import ShaderSource.Proofs.Tree.Pieces

/-!
# The parts of the written form of a node

A node is written as pieces of its own with its children among them. All its
children are there, in their order, and a change of them changes nothing else of
the written form. The pieces of a node are those of its parts.
-/

namespace ShaderSource

/-- A part of the written form of a node: a piece of its own, or a child, which has its `;` only
    if it is closed. -/
inductive Part where
  | piece (piece : Piece)
  | child (closed : Bool) (node : Node)

namespace Part

/-- The child that a part is. -/
def child? : Part → Option Node
  | piece _ => none
  | child _ node => some node

/-- Changes a child. -/
def change (change : Node → Node) : Part → Part
  | piece own => piece own
  | child closed node => child closed (change node)

/-- The pieces of a part. -/
def pieces : Part → List Piece
  | piece own => [own]
  | child closed node => node.pieces closed

/-- Some pieces of a node itself. -/
def own (pieces : List Piece) : List Part := pieces.map piece

/-- Some children without anything between them. -/
def row (nodes : List Node) : List Part := nodes.map (child true)

/-- Some children with commas between them. -/
def listed : List Node → List Part
  | [] => []
  | first :: others =>
    child true first :: others.flatMap fun node => [piece .comma, child true node]

/-- The statements of a body in braces. -/
def braced (body : List Node) : List Part :=
  piece (.bracket "\x7b") :: row body ++ own [.bracket "\x7d"]

/-- A condition in parentheses before a body. -/
def guarded (condition : Node) (body : List Node) : List Part :=
  piece (.bracket "(") :: child true condition :: piece (.bracket ")") :: braced body

/-- Operands with the operators between them. -/
def chain : List BinaryOp → List Node → List Part
  | op :: ops, operand :: operands => child true operand :: piece op.piece :: chain ops operands
  | _, operands => row operands

/-- The first value of a variable, if it is given one. -/
def initial : Option Node → List Part
  | none => []
  | some value => [piece .equals, child true value]

/-- A branch, from its `else` on. -/
def branch : Branch → List Part
  | .mk condition body => own [.word "else", .word "if"] ++ guarded condition body

/-- A last branch without a condition, if there is one. -/
def otherwise : Option (List Node) → List Part
  | none => []
  | some body => piece (.word "else") :: braced body

end Part

/-- The parts of the written form of a node, in their order. Its `;`, if it has one, is among
    them only if `closed`. -/
def Node.parts (closed : Bool) : Node → List Part
  | .precision level ty => Part.own [.word "precision", .word level, .word ty, .semicolon]
  | .declaration qualifier ty name value =>
    Part.own (Qualifier.pieces qualifier ++ [.word ty, .word name]) ++ Part.initial value ++
      Part.own (Piece.statementEnd closed)
  | .assignment name op value =>
    Part.own [.word name, op.piece] ++ .child true value :: Part.own (Piece.statementEnd closed)
  | .propertyAssignment target op value =>
    .child true target :: .piece op.piece :: .child true value ::
      Part.own (Piece.statementEnd closed)
  | .expression value => .child true value :: Part.own (Piece.statementEnd closed)
  | .empty => Part.own (Piece.statementEnd closed)
  | .function returnType name params body =>
    Part.own (.word returnType :: .word name :: .bracket "(" ::
      Piece.listed (params.map Param.pieces) ++ [.bracket ")"]) ++ Part.braced body
  | .conditional condition body elseIfs elseBody =>
    .piece (.word "if") :: Part.guarded condition body ++ elseIfs.flatMap Part.branch ++
      Part.otherwise elseBody
  | .loop init check increment body =>
    Part.own [.word "for", .bracket "("] ++ .child false init :: .piece .semicolon ::
      .child false check :: .piece .semicolon :: .child false increment ::
      .piece (.bracket ")") :: Part.braced body
  | .returning value =>
    .piece (.word "return") :: Part.row value.toList ++ Part.own [.semicolon]
  | .breaking => Part.own [.word "break", .semicolon]
  | .float text => Part.own [⟨.float, text⟩]
  | .int text => Part.own [⟨.integer, text⟩]
  | .reference name => Part.own [.word name]
  | .parenthesized value => .piece (.bracket "(") :: .child true value :: Part.own [.bracket ")"]
  | .unary op value => [.piece op.piece, .child true value]
  | .call callee args =>
    .child true callee :: .piece (.bracket "(") :: Part.listed args ++ Part.own [.bracket ")"]
  | .binary ops operands => Part.chain ops operands
  | .property value name => .child true value :: Part.own [.marker ".", .word name]
  | .crement op trailing value =>
    if trailing then [.child true value, .piece op.piece] else [.piece op.piece, .child true value]
  | .chunk _ => []

namespace Part

section Children

@[simp] theorem filterMap_piece (piece : Piece) (parts : List Part) :
    (.piece piece :: parts).filterMap child? = parts.filterMap child? := rfl

@[simp] theorem filterMap_child (closed : Bool) (node : Node) (parts : List Part) :
    (child closed node :: parts).filterMap child? = node :: parts.filterMap child? := rfl

@[simp] theorem filterMap_own (pieces : List Piece) : (own pieces).filterMap child? = [] := by
  induction pieces with
  | nil => rfl
  | cons piece pieces inductionHypothesis => exact inductionHypothesis

/-- The children in a row of nodes are the nodes. -/
@[simp] theorem filterMap_row (nodes : List Node) :
    (row nodes).filterMap child? = nodes := by
  simp [row, List.filterMap_map, Function.comp_def, child?]

/-- The commas of a list are no children. -/
@[simp] theorem filterMap_listed (nodes : List Node) :
    (listed nodes).filterMap child? = nodes := by
  cases nodes with
  | nil => rfl
  | cons first others => simp [listed, List.filterMap_flatMap]

/-- The braces of a body are no children. -/
@[simp] theorem filterMap_braced (body : List Node) : (braced body).filterMap child? = body := by
  simp [braced]

/-- The condition comes before the statements that it guards. -/
@[simp] theorem filterMap_guarded (condition : Node) (body : List Node) :
    (guarded condition body).filterMap child? = condition :: body := by simp [guarded]

/-- The value of a declaration is its only child. -/
@[simp] theorem filterMap_initial (value : Option Node) :
    (initial value).filterMap child? = value.toList := by cases value <;> simp [initial]

/-- The children of a branch are its condition and its statements. -/
@[simp] theorem filterMap_branch (branch : Branch) :
    (Part.branch branch).filterMap child? = branch.children := by
  cases branch with
  | mk => simp [Part.branch, Branch.children]

/-- The children in the last branch are its statements, if there is one. -/
@[simp] theorem filterMap_otherwise (last : Option (List Node)) :
    (otherwise last).filterMap child? = last.getD [] := by cases last <;> simp [otherwise]

/-- The operators of a chain are no children. -/
@[simp] theorem filterMap_chain (ops : List BinaryOp) (operands : List Node) :
    (chain ops operands).filterMap child? = operands := by
  induction operands generalizing ops with
  | nil => cases ops <;> rfl
  | cons operand operands inductionHypothesis =>
    cases ops with
    | nil => simp [chain]
    | cons op ops => simp [chain, inductionHypothesis]

end Children

section Changes

variable (change : Node → Node)

/-- A change of the children leaves the pieces of the node itself. -/
@[simp] theorem map_own (pieces : List Piece) :
    (own pieces).map (Part.change change) = own pieces := by
  simp [own, Function.comp_def, Part.change]

/-- A change of the children changes a row node by node. -/
@[simp] theorem map_row (nodes : List Node) :
    (row nodes).map (Part.change change) = row (nodes.map change) := by
  simp [row, Function.comp_def, Part.change]

/-- A change of the children keeps the commas of a list. -/
@[simp] theorem map_listed (nodes : List Node) :
    (listed nodes).map (Part.change change) = listed (nodes.map change) := by
  cases nodes <;> simp [listed, Part.change, List.map_flatMap, List.flatMap_map]

/-- A change of the children keeps the braces of a body. -/
@[simp] theorem map_braced (body : List Node) :
    (braced body).map (Part.change change) = braced (body.map change) := by
  simp [braced, Part.change]

/-- A change of the children changes the condition and the statements. -/
@[simp] theorem map_guarded (condition : Node) (body : List Node) :
    (guarded condition body).map (Part.change change) =
      guarded (change condition) (body.map change) := by
  simp [guarded, Part.change]

/-- A change of the children keeps the operators of a chain. -/
@[simp] theorem map_chain (ops : List BinaryOp) (operands : List Node) :
    (chain ops operands).map (Part.change change) = chain ops (operands.map change) := by
  induction operands generalizing ops with
  | nil => cases ops <;> rfl
  | cons operand operands inductionHypothesis =>
    cases ops with
    | nil => simp [chain]
    | cons op ops => simp [chain, Part.change, inductionHypothesis]

/-- A change of the children changes the value, if there is one. -/
@[simp] theorem map_initial (value : Option Node) :
    (initial value).map (Part.change change) = initial (value.map change) := by
  cases value <;> simp [initial, Part.change]

/-- A change of the children keeps the words of a branch. -/
@[simp] theorem map_branch (branch : Branch) :
    (Part.branch branch).map (Part.change change) =
      Part.branch (branch.mapChildren change) := by
  cases branch with
  | mk => simp [Part.branch, Branch.mapChildren]

/-- A change of the children changes the last branch, if there is one. -/
@[simp] theorem map_otherwise (last : Option (List Node)) :
    (otherwise last).map (Part.change change) = otherwise (last.map (List.map change)) := by
  cases last <;> simp [otherwise, Part.change]

end Changes

section Pieces

/-- The pieces of the node itself are as they are. -/
@[simp] theorem flatMap_own (pieces : List Piece) : (own pieces).flatMap Part.pieces = pieces := by
  simp [own, List.flatMap_map, Part.pieces]

/-- A row of nodes is printed node by node. -/
@[simp] theorem flatMap_row (nodes : List Node) :
    (row nodes).flatMap Part.pieces = (Node.piecesList nodes).flatten := by
  simp [row, List.flatMap_def, Node.piecesList_eq_map, Function.comp_def, Part.pieces]

/-- A list is printed with its commas. -/
@[simp] theorem flatMap_listed (nodes : List Node) :
    (listed nodes).flatMap Part.pieces = Piece.listed (Node.piecesList nodes) := by
  cases nodes with
  | nil => rfl
  | cons first others =>
    simp [listed, Part.pieces, Node.piecesList_eq_map, Piece.listed, List.flatMap_assoc,
      List.flatMap_map]

/-- A body is printed between its braces. -/
@[simp] theorem flatMap_braced (body : List Node) :
    (braced body).flatMap Part.pieces = Piece.braced (Node.piecesList body) := by
  simp [braced, Part.pieces, Piece.braced]

/-- A condition is printed between parentheses, with the body behind it. -/
@[simp] theorem flatMap_guarded (condition : Node) (body : List Node) :
    (guarded condition body).flatMap Part.pieces =
      Piece.guarded (condition.pieces true) (Node.piecesList body) := by
  simp [guarded, Part.pieces, Piece.guarded]

/-- A chain is printed with an operator before each operand but the first. -/
theorem flatMap_chain {ops : List BinaryOp} {operands : List Node}
    (count : operands.length = ops.length + 1) :
    (chain ops operands).flatMap Part.pieces = chainPieces ops (Node.piecesList operands) := by
  induction ops generalizing operands with
  | nil =>
    obtain ⟨operand, rfl⟩ := List.length_eq_one_iff.mp count
    simp [chain, row, Part.pieces, Node.piecesList, chainPieces]
  | cons op ops inductionHypothesis =>
    obtain ⟨first, rest, rfl⟩ := List.exists_cons_of_length_eq_add_one count
    have fewer : rest.length = ops.length + 1 := Nat.succ.inj count
    obtain ⟨second, others, rfl⟩ := List.exists_cons_of_length_eq_add_one fewer
    have later := inductionHypothesis fewer
    simp only [chain, List.flatMap_cons, Part.pieces] at later ⊢
    rw [later]
    simp [Node.piecesList, chainPieces]

/-- A value is printed behind its sign, if there is one. -/
@[simp] theorem flatMap_initial (value : Option Node) :
    (initial value).flatMap Part.pieces = Node.initialPieces value := by
  cases value <;> simp [initial, Part.pieces, Node.initialPieces]

/-- A branch is printed with its words. -/
@[simp] theorem flatMap_branch (branch : Branch) :
    (Part.branch branch).flatMap Part.pieces = branch.pieces := by
  cases branch with
  | mk => simp [Part.branch, Branch.pieces]

/-- The last branch is printed with its word, if there is one. -/
@[simp] theorem flatMap_otherwise (last : Option (List Node)) :
    (otherwise last).flatMap Part.pieces = Node.elsePieces last := by
  cases last <;> simp [otherwise, Part.pieces, Node.elsePieces]

end Pieces

end Part

namespace Node

/-- The children among the parts of a node are its children, in their order. -/
theorem filterMap_parts (closed : Bool) (node : Node) :
    (node.parts closed).filterMap Part.child? = node.children := by
  cases node with
  | crement _ trailing _ => cases trailing <;> simp [parts, children]
  | _ => simp [parts, children, List.filterMap_flatMap]

/-- A change of the children changes nothing else of the written form. -/
theorem parts_mapChildren (closed : Bool) (change : Node → Node) (node : Node) :
    (node.mapChildren change).parts closed = (node.parts closed).map (Part.change change) := by
  cases node with
  | crement _ trailing _ => cases trailing <;> simp [parts, mapChildren, Part.change]
  | returning value => cases value <;> simp [parts, mapChildren, Part.change]
  | _ => simp [parts, mapChildren, Part.change, List.map_flatMap, List.flatMap_map]

end Node

/-- The pieces of a node are those of its parts. -/
theorem Shaped.pieces_eq {category : Category} {node : Node} (shaped : Shaped category node)
    (closed : Bool) : node.pieces closed = (node.parts closed).flatMap Part.pieces := by
  induction shaped with
  | binary _ count => exact (Part.flatMap_chain count).symm
  | ofPrimary _ found | ofOperand _ found | ofClause _ found | ofStatement _ found => exact found
  | conditional =>
    simp [Node.pieces, Node.parts, Part.pieces, Branch.piecesList_eq_flatMap, List.flatMap_assoc]
  | @returning result =>
    cases result <;> simp [Node.pieces, Node.parts, Part.pieces, Node.resultPieces, Node.piecesList]
  | _ => simp [Node.pieces, Node.parts, Part.pieces]

end ShaderSource
