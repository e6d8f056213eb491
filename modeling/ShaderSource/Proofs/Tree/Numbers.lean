import ShaderSource.Proofs.Tree.Owners

/-!
# The numbers of a tree

A number is written as one piece, and no other node has a number among its own
pieces. So the numbers among the pieces of a tree are those of its nodes that
are numbers, in the order in which they stand in the tree.
-/

namespace ShaderSource

namespace Node

/-- The piece that a number is written as. -/
def number? : Node → Option Piece
  | float text => some ⟨.float, text⟩
  | int text => some ⟨.integer, text⟩
  | _ => none

end Node

/-- Whether a kind of nodes is one of the two kinds of numbers. -/
def NodeKind.isNumber : NodeKind → Bool
  | float | int => true
  | _ => false

/-- Whether a piece is a number. -/
def Piece.isNumber (piece : Piece) : Bool :=
  match piece.kind with
  | .float | .integer => true
  | _ => false

namespace Piece

@[simp] theorem isNumber_word (text : String) : (word text).isNumber = false := rfl

@[simp] theorem isNumber_bracket (text : String) : (bracket text).isNumber = false := rfl

@[simp] theorem isNumber_marker (text : String) : (marker text).isNumber = false := rfl

@[simp] theorem isNumber_semicolon : semicolon.isNumber = false := rfl

@[simp] theorem isNumber_comma : comma.isNumber = false := rfl

@[simp] theorem isNumber_assignOp (op : AssignOp) : op.piece.isNumber = false := rfl

@[simp] theorem isNumber_unaryOp (op : UnaryOp) : op.piece.isNumber = false := rfl

@[simp] theorem isNumber_crementOp (op : CrementOp) : op.piece.isNumber = false := rfl

@[simp] theorem isNumber_binaryOp (op : BinaryOp) : op.piece.isNumber = false := by
  cases op <;> rfl

/-- The end of a statement has no number. -/
@[simp] theorem all_statementEnd (closed : Bool) :
    ((statementEnd closed).all fun piece => !piece.isNumber) = true := by
  cases closed <;> rfl

/-- A qualifier has no number. -/
@[simp] theorem all_qualifier (qualifier : Option Qualifier) :
    ((Qualifier.pieces qualifier).all fun piece => !piece.isNumber) = true := by
  cases qualifier <;> rfl

/-- The parameters of a function have no number. -/
@[simp] theorem all_params (params : List Param) :
    ((listed (params.map Param.pieces)).all fun piece => !piece.isNumber) = true := by
  cases params <;> simp [listed, Param.pieces, Function.comp_def]

end Piece

namespace Part

/-- Whether a part is no number of the node itself. -/
def numberless : Part → Bool
  | piece own => !own.isNumber
  | child .. => true

/-- A piece of the node itself may be a number. -/
@[simp] theorem numberless_piece (own : Piece) : (piece own).numberless = !own.isNumber := rfl

/-- Numbers in a child are not those of the node. -/
@[simp] theorem numberless_child (closed : Bool) (node : Node) :
    (child closed node).numberless = true := rfl

/-- Only the pieces of a node itself can be its numbers. -/
@[simp] theorem all_own (pieces : List Piece) :
    (own pieces).all numberless = pieces.all fun piece => !piece.isNumber := by
  simp [own, Function.comp_def]

/-- A row of nodes has no number of its own. -/
@[simp] theorem all_row (nodes : List Node) : (row nodes).all numberless = true := by
  simp [row]

/-- A body has no number of its own. -/
@[simp] theorem all_braced (body : List Node) : (braced body).all numberless = true := by
  simp [braced]

/-- A condition and its body have no number of their own. -/
@[simp] theorem all_guarded (condition : Node) (body : List Node) :
    (guarded condition body).all numberless = true := by
  simp [guarded]

/-- A list has no number of its own. -/
@[simp] theorem all_listed (nodes : List Node) : (listed nodes).all numberless = true := by
  cases nodes <;> simp [listed]

/-- A chain has no number of its own. -/
@[simp] theorem all_chain (ops : List BinaryOp) (operands : List Node) :
    (chain ops operands).all numberless = true := by
  induction operands generalizing ops with
  | nil => cases ops <;> rfl
  | cons operand operands inductionHypothesis =>
    cases ops with
    | nil => exact all_row _
    | cons op ops => simp [chain, inductionHypothesis]

/-- The value of a declaration is no number of the declaration. -/
@[simp] theorem all_initial (value : Option Node) : (initial value).all numberless = true := by
  cases value <;> rfl

/-- A branch has no number of its own. -/
@[simp] theorem all_branch (branch : Branch) : (Part.branch branch).all numberless = true := by
  cases branch with
  | mk => simp [Part.branch]

/-- The last branch has no number of its own. -/
@[simp] theorem all_otherwise (last : Option (List Node)) :
    (otherwise last).all numberless = true := by
  cases last <;> simp [otherwise]

end Part

/-- Nodes of other kinds own no numbers. -/
theorem Node.numberless {node : Node} (other : node.kind.isNumber = false) (closed : Bool) :
    (node.parts closed).all Part.numberless = true := by
  cases node with
  | float | int => exact Bool.noConfusion other
  | crement _ trailing _ => cases trailing <;> rfl
  | conditional => simp [parts]
  | _ => simp [parts, -List.all_eq_true]

/-- A piece is a number exactly if the node that owns it is one. -/
theorem Node.isNumber_owned {closed : Bool} {node : Node} {own : NodeKind × Piece}
    (member : own ∈ node.owned closed) : own.2.isNumber = own.1.isNumber := by
  induction node using Node.childrenInduction generalizing closed with
  | step node inductionHypothesis =>
    rw [owned_eq, List.mem_flatMap] at member
    obtain ⟨part, among, inside⟩ := member
    cases part with
    | child inner child =>
      exact inductionHypothesis child (mem_children_of_mem_parts among) inside
    | piece piece =>
      obtain rfl := List.mem_singleton.mp inside
      cases number : node.kind.isNumber with
      | false =>
        have plain := List.all_eq_true.mp (numberless number closed) _ among
        simpa using plain
      | true =>
        cases node with
        | float | int =>
          obtain rfl := Part.piece.inj (List.mem_singleton.mp among)
          rfl
        | _ => exact Bool.noConfusion number

/-- The numbers among the pieces of a node are its subtrees that are numbers. -/
theorem Shaped.numbers {category : Category} {node : Node} (shaped : Shaped category node)
    (closed : Bool) :
    (node.pieces closed).filter Piece.isNumber = node.subtrees.filterMap Node.number? := by
  have owners : (node.owned closed).filter (Piece.isNumber ∘ Prod.snd) =
      (node.owned closed).filter fun own => own.1.isNumber :=
    List.filter_congr fun own member => Node.isNumber_owned member
  rw [← shaped.owned_pieces, List.filter_map, owners]
  apply Node.owned_filter NodeKind.isNumber
  · intro node piece found
    cases node with
    | float | int =>
      obtain rfl := Option.some.inj found
      exact ⟨rfl, fun _ => rfl⟩
    | _ => exact nomatch found
  · intro node absent
    cases node with
    | float | int => exact nomatch absent
    | _ => rfl

end ShaderSource
