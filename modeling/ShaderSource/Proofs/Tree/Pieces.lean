import ShaderSource.Proofs.Token.Piece
import ShaderSource.Tree.Node

/-!
# The pieces of a tree

A tree has the pieces of the source text that it stands for, in their order:
its names, numbers and operators with the words, brackets and marks between
them. They are given here without any layout, so that a text can be compared
with a tree on one side and a parser on the other.

Finished source text has no pieces of its own, since what it holds is not known
to the tree.
-/

namespace ShaderSource

namespace Piece

/-- A name or a word of the language. -/
def word (text : String) : Piece := ⟨.identifier, text⟩

def bracket (text : String) : Piece := ⟨.bracket, text⟩

def marker (text : String) : Piece := ⟨.marker, text⟩

def comma : Piece := marker ","

def semicolon : Piece := marker ";"

/-- The `=` before the first value of a variable. -/
def equals : Piece := ⟨.assign, "="⟩

/-- The `;` of a closed statement. -/
def statementEnd (closed : Bool) : List Piece := if closed then [semicolon] else []

/-- Some items with commas between them. -/
def listed : List (List Piece) → List Piece
  | [] => []
  | first :: others => first ++ others.flatMap (comma :: ·)

/-- The statements of a body in braces. -/
def braced (statements : List (List Piece)) : List Piece :=
  bracket "\x7b" :: statements.flatten ++ [bracket "\x7d"]

/-- A condition in parentheses before a body. -/
def guarded (condition : List Piece) (statements : List (List Piece)) : List Piece :=
  bracket "(" :: condition ++ bracket ")" :: braced statements

end Piece

def Qualifier.piece (qualifier : Qualifier) : Piece := .word qualifier.spelling

/-- The piece of a qualifier, if there is one. -/
def Qualifier.pieces : Option Qualifier → List Piece
  | none => []
  | some qualifier => [qualifier.piece]

def AssignOp.piece (op : AssignOp) : Piece := ⟨.assign, op.spelling⟩

def UnaryOp.piece (op : UnaryOp) : Piece := ⟨.operator, op.spelling⟩

def CrementOp.piece (op : CrementOp) : Piece := ⟨.crement, op.spelling⟩

/-- The class of the token that an operator is written as. -/
def BinaryOp.kind : BinaryOp → TokenKind
  | add | sub | mul | div | mod => .operator
  | equal | notEqual | less | greater | lessEqual | greaterEqual => .equality
  | or | and => .boolop

def BinaryOp.piece (op : BinaryOp) : Piece := ⟨op.kind, op.spelling⟩

def Param.pieces (param : Param) : List Piece := [.word param.ty, .word param.name]

/-- Operands with the operators between them. -/
def chainPieces (ops : List BinaryOp) : List (List Piece) → List Piece
  | [] => []
  | first :: others =>
    first ++ (List.zipWith (fun op operand => op.piece :: operand) ops others).flatten

mutual

/-- The pieces of a node, in their order. Its `;`, if it has one, is among them only if
    `closed`. -/
def Node.pieces (closed : Bool) : Node → List Piece
  | .precision level ty => [.word "precision", .word level, .word ty, .semicolon]
  | .declaration qualifier ty name value =>
    Qualifier.pieces qualifier ++ .word ty :: .word name :: Node.initialPieces value ++
      Piece.statementEnd closed
  | .assignment name op value =>
    .word name :: op.piece :: value.pieces true ++ Piece.statementEnd closed
  | .propertyAssignment target op value =>
    target.pieces true ++ op.piece :: value.pieces true ++ Piece.statementEnd closed
  | .expression value => value.pieces true ++ Piece.statementEnd closed
  | .empty => Piece.statementEnd closed
  | .function returnType name params body =>
    .word returnType :: .word name :: .bracket "(" ::
      Piece.listed (params.map Param.pieces) ++ .bracket ")" ::
      Piece.braced (Node.piecesList body)
  | .conditional condition body elseIfs elseBody =>
    .word "if" :: Piece.guarded (condition.pieces true) (Node.piecesList body) ++
      Branch.piecesList elseIfs ++ Node.elsePieces elseBody
  | .loop init check increment body =>
    .word "for" :: .bracket "(" :: init.pieces false ++ .semicolon :: check.pieces false ++
      .semicolon :: increment.pieces false ++ .bracket ")" ::
      Piece.braced (Node.piecesList body)
  | .returning value => .word "return" :: Node.resultPieces value ++ [.semicolon]
  | .breaking => [.word "break", .semicolon]
  | .float text => [⟨.float, text⟩]
  | .int text => [⟨.integer, text⟩]
  | .reference name => [.word name]
  | .parenthesized value => .bracket "(" :: value.pieces true ++ [.bracket ")"]
  | .unary op value => op.piece :: value.pieces true
  | .call callee args =>
    callee.pieces true ++ .bracket "(" :: Piece.listed (Node.piecesList args) ++ [.bracket ")"]
  | .binary ops operands => chainPieces ops (Node.piecesList operands)
  | .property value property => value.pieces true ++ [.marker ".", .word property]
  | .crement op trailing value =>
    if trailing then value.pieces true ++ [op.piece] else op.piece :: value.pieces true
  | .chunk _ => []

/-- The pieces of each of some nodes. -/
def Node.piecesList : List Node → List (List Piece)
  | [] => []
  | node :: nodes => node.pieces true :: Node.piecesList nodes

/-- The pieces of the first value of a variable, if it is given one. -/
def Node.initialPieces : Option Node → List Piece
  | none => []
  | some value => .equals :: value.pieces true

/-- The pieces of the result of a function, if it has one. -/
def Node.resultPieces : Option Node → List Piece
  | none => []
  | some value => value.pieces true

/-- The pieces of a last branch without a condition, if there is one. -/
def Node.elsePieces : Option (List Node) → List Piece
  | none => []
  | some body => .word "else" :: Piece.braced (Node.piecesList body)

/-- The pieces of a branch, from its `else` on. -/
def Branch.pieces : Branch → List Piece
  | .mk condition body =>
    .word "else" :: .word "if" ::
      Piece.guarded (condition.pieces true) (Node.piecesList body)

/-- The pieces of some branches. -/
def Branch.piecesList : List Branch → List Piece
  | [] => []
  | branch :: branches => branch.pieces ++ Branch.piecesList branches

end

/-- The pieces of some statements, each with its end. -/
theorem Node.piecesList_eq_map (nodes : List Node) :
    Node.piecesList nodes = nodes.map (Node.pieces true) := by
  induction nodes with
  | nil => rfl
  | cons node nodes inductionHypothesis => simp [Node.piecesList, inductionHypothesis]

/-- The pieces of some branches, one after the other. -/
theorem Branch.piecesList_eq_flatMap (branches : List Branch) :
    Branch.piecesList branches = branches.flatMap Branch.pieces := by
  induction branches with
  | nil => rfl
  | cons branch branches inductionHypothesis =>
    simp [Branch.piecesList, inductionHypothesis]

/-- The pieces of a program. -/
def programPieces (nodes : List Node) : List Piece := nodes.flatMap (Node.pieces true)

end ShaderSource
