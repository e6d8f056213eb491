import ShaderSource.Tree.Word

/-!
# Trees of programs

A program is a list of nodes. One type holds statements and expressions alike,
so that a pass over a tree can put any node in any place; which trees a
program can have is a matter of the grammar. Chains of binary operators are
flat: `a + b * c` is one node with two operators and three operands, and
grouping is written with parentheses only.

Numbers keep the text they were written with.
-/

namespace ShaderSource

/-- A parameter of a function. -/
structure Param where
  ty : String
  name : String
  deriving DecidableEq, Repr

mutual

/-- A statement or an expression. -/
inductive Node where
  /-- The default precision of a type, such as `precision mediump float;` -/
  | precision (level ty : String)
  | declaration (qualifier : Option Qualifier) (ty name : String) (value : Option Node)
  | assignment (name : String) (op : AssignOp) (value : Node)
  /-- An assignment to a chain of properties, such as `color.a = 1.0;` -/
  | propertyAssignment (target : Node) (op : AssignOp) (value : Node)
  | expression (value : Node)
  /-- A lone `;`, or nothing at all in a clause of a loop. -/
  | empty
  | function (returnType name : String) (params : List Param) (body : List Node)
  | conditional (condition : Node) (body : List Node) (elseIfs : List Branch)
      (elseBody : Option (List Node))
  /-- A loop, whose three clauses are statements without their `;`. -/
  | loop (init check increment : Node) (body : List Node)
  | returning (value : Option Node)
  | breaking
  | float (text : String)
  | int (text : String)
  /-- The use of a variable. -/
  | reference (name : String)
  | parenthesized (value : Node)
  | unary (op : UnaryOp) (value : Node)
  | call (callee : Node) (args : List Node)
  /-- A chain of operands with one operator between each two of them. -/
  | binary (ops : List BinaryOp) (operands : List Node)
  | property (value : Node) (property : String)
  /-- A step up or down, written after its value if `trailing`, else before it. -/
  | crement (op : CrementOp) (trailing : Bool) (value : Node)
  /-- Finished source text. -/
  | chunk (text : String)

/-- A condition after an `else` with the statements it guards. -/
inductive Branch where
  | mk (condition : Node) (body : List Node)

end

instance : Inhabited Node := ⟨.empty⟩

/-- The kinds of nodes, without their parts. -/
inductive NodeKind where
  | precision
  | declaration
  | assignment
  | propertyAssignment
  | expression
  | empty
  | function
  | conditional
  | loop
  | returning
  | breaking
  | float
  | int
  | reference
  | parenthesized
  | unary
  | call
  | binary
  | property
  | crement
  | chunk
  deriving DecidableEq, Repr

namespace NodeKind

def all : List NodeKind :=
  [precision, declaration, assignment, propertyAssignment, expression, empty, function,
   conditional, loop, returning, breaking, float, int, reference, parenthesized, unary, call,
   binary, property, crement, chunk]

/-- The name of a kind in written forms of a tree. -/
def name : NodeKind → String
  | precision => "Precision"
  | declaration => "VariableDecl"
  | assignment => "VariableAssign"
  | propertyAssignment => "PropertyAssign"
  | expression => "ExpressionStatement"
  | empty => "EmptyStatement"
  | function => "FunctionDecl"
  | conditional => "If"
  | loop => "For"
  | returning => "Return"
  | breaking => "Break"
  | float => "Float"
  | int => "Int"
  | reference => "Variable"
  | parenthesized => "Parenthesized"
  | unary => "Unary"
  | call => "Call"
  | binary => "Binary"
  | property => "Property"
  | crement => "Crement"
  | chunk => "Chunk"

/-- The kind with a name. -/
def ofName? (text : String) : Option NodeKind := all.find? fun kind => kind.name == text

/-- A kind is known by its name. -/
theorem ofName?_name (kind : NodeKind) : ofName? kind.name = some kind := by
  cases kind <;> rfl

end NodeKind

namespace Node

def kind : Node → NodeKind
  | precision .. => .precision
  | declaration .. => .declaration
  | assignment .. => .assignment
  | propertyAssignment .. => .propertyAssignment
  | expression .. => .expression
  | empty => .empty
  | function .. => .function
  | conditional .. => .conditional
  | loop .. => .loop
  | returning .. => .returning
  | breaking => .breaking
  | float .. => .float
  | int .. => .int
  | reference .. => .reference
  | parenthesized .. => .parenthesized
  | unary .. => .unary
  | call .. => .call
  | binary .. => .binary
  | property .. => .property
  | crement .. => .crement
  | chunk .. => .chunk

/-- Variables and chains of properties can be stepped up and down. -/
def isCrementTarget : Node → Bool
  | reference .. | property .. => true
  | _ => false

/-- Whether a node is the property of a value. -/
def isProperty : Node → Bool
  | property .. => true
  | _ => false

end Node

end ShaderSource
