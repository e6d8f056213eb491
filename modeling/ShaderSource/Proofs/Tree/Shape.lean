import ShaderSource.Grammar.Basic
import ShaderSource.Proofs.Token.Piece
import ShaderSource.Tree.Node

/-!
# The trees that a program can have

A node type for everything lets a tree hold any node anywhere. The trees of
programs have a shape: postfix forms grow on primaries, signs and leading steps
stand before operands, chains of binary operators have operands and no chains
inside, and qualifiers, precision statements and functions stand only at the
top. Finished source text has no place in such a tree.

Beside its shape a tree has a nesting. The top of a program is level zero. What
stands directly in a statement is one level further in, and what stands inside
parentheses, behind a sign or a leading step, or as an argument is two levels
further in than the expression around it: one for the value, one for the single
value in it. The levels of lists of statements and of expressions are limited.
-/

namespace ShaderSource

/-- Whether a text can name a type, a declaration or a variable. -/
def isNameText (text : String) : Bool :=
  Lexeme.identifierText text.toList && !isReserved text

/-- What a node stands for in a program. -/
inductive Category where
  /-- A value that something can be written behind. -/
  | primary
  /-- A value between two binary operators. -/
  | operand
  | expression
  /-- A statement that can also be a clause of a loop. -/
  | clause
  /-- A statement of a body. -/
  | statement
  /-- A statement at the top of a program. -/
  | top
  deriving DecidableEq, Repr

namespace Category

/-- The contexts in which the nodes of a category are read. -/
def flags : Category → Flags
  | primary => .single
  | operand => .operand
  | expression => .value
  | clause => .simple
  | statement => .statement
  | top => .root

/-- Whether the statements of a category end with their `;`. -/
def closed : Category → Bool
  | clause => false
  | _ => true

/-- Whether the nodes of a category are statements. -/
def isStatement : Category → Bool
  | clause | statement | top => true
  | _ => false

end Category

/-- The condition of a branch. -/
def Branch.condition : Branch → Node
  | .mk condition _ => condition

/-- The statements that a branch guards. -/
def Branch.body : Branch → List Node
  | .mk _ body => body

/-- A node has the shape of a category. -/
inductive Shaped : Category → Node → Prop
  | float {text : String} (written : Lexeme.floatText text.toList = true) :
      Shaped .primary (.float text)
  | int {text : String} (written : Lexeme.integerText text.toList = true) :
      Shaped .primary (.int text)
  | reference {name : String} (named : isNameText name = true) :
      Shaped .primary (.reference name)
  | parenthesized {value : Node} (inner : Shaped .expression value) :
      Shaped .primary (.parenthesized value)
  | call {callee : Node} {args : List Node} (called : Shaped .primary callee)
      (given : ∀ arg ∈ args, Shaped .expression arg) : Shaped .primary (.call callee args)
  /-- The name of a property may be a reserved word. -/
  | property {value : Node} {property : String} (owner : Shaped .primary value)
      (named : Lexeme.identifierText property.toList = true) :
      Shaped .primary (.property value property)
  | trailingCrement {op : CrementOp} {value : Node} (stepped : Shaped .primary value)
      (target : value.isCrementTarget = true) : Shaped .primary (.crement op true value)
  | ofPrimary {node : Node} (primary : Shaped .primary node) : Shaped .operand node
  | unary {op : UnaryOp} {value : Node} (inner : Shaped .operand value) :
      Shaped .operand (.unary op value)
  | leadingCrement {op : CrementOp} {value : Node} (stepped : Shaped .primary value)
      (target : value.isCrementTarget = true) : Shaped .operand (.crement op false value)
  | ofOperand {node : Node} (operand : Shaped .operand node) : Shaped .expression node
  | binary {ops : List BinaryOp} {operands : List Node} (linked : ops ≠ [])
      (count : operands.length = ops.length + 1)
      (parts : ∀ operand ∈ operands, Shaped .operand operand) :
      Shaped .expression (.binary ops operands)
  | declaration {ty name : String} {initial : Option Node} (typed : isNameText ty = true)
      (named : isNameText name = true)
      (value : ∀ node, initial = some node → Shaped .expression node) :
      Shaped .clause (.declaration none ty name initial)
  | assignment {name : String} {op : AssignOp} {value : Node} (named : isNameText name = true)
      (assigned : Shaped .expression value) : Shaped .clause (.assignment name op value)
  | propertyAssignment {target : Node} {op : AssignOp} {value : Node}
      (owner : Shaped .primary target) (property : target.isProperty = true)
      (assigned : Shaped .expression value) :
      Shaped .clause (.propertyAssignment target op value)
  | expression {value : Node} (inner : Shaped .expression value) :
      Shaped .clause (.expression value)
  | empty : Shaped .clause .empty
  | ofClause {node : Node} (clause : Shaped .clause node) : Shaped .statement node
  | conditional {condition : Node} {body : List Node} {elseIfs : List Branch}
      {elseBody : Option (List Node)} (guard : Shaped .expression condition)
      (guarded : ∀ node ∈ body, Shaped .statement node)
      (guards : ∀ branch ∈ elseIfs, Shaped .expression branch.condition)
      (branches : ∀ branch ∈ elseIfs, ∀ node ∈ branch.body, Shaped .statement node)
      (last : ∀ nodes, elseBody = some nodes → ∀ node ∈ nodes, Shaped .statement node) :
      Shaped .statement (.conditional condition body elseIfs elseBody)
  | loop {init check increment : Node} {body : List Node} (first : Shaped .clause init)
      (second : Shaped .clause check) (third : Shaped .clause increment)
      (repeated : ∀ node ∈ body, Shaped .statement node) :
      Shaped .statement (.loop init check increment body)
  | returning {result : Option Node}
      (value : ∀ node, result = some node → Shaped .expression node) :
      Shaped .statement (.returning result)
  | breaking : Shaped .statement .breaking
  | ofStatement {node : Node} (statement : Shaped .statement node) : Shaped .top node
  | precision {level ty : String} (graded : isNameText level = true)
      (typed : isNameText ty = true) : Shaped .top (.precision level ty)
  | qualified {qualifier : Qualifier} {ty name : String} {initial : Option Node}
      (typed : isNameText ty = true) (named : isNameText name = true)
      (value : ∀ node, initial = some node → Shaped .expression node) :
      Shaped .top (.declaration (some qualifier) ty name initial)
  | function {returnType name : String} {params : List Param} {body : List Node}
      (typed : isNameText returnType = true) (named : isNameText name = true)
      (declared : ∀ param ∈ params, isNameText param.ty = true ∧ isNameText param.name = true)
      (performed : ∀ node ∈ body, Shaped .statement node) :
      Shaped .top (.function returnType name params body)

/-- The nodes at the top of a program have the shape that the grammar gives them. -/
def ShapedProgram (nodes : List Node) : Prop := ∀ node ∈ nodes, Shaped .top node

mutual

/-- A node on a level is nested no more deeply than the limit allows: each expression in it
    stands on a level up to the limit, and each list of statements below the limit. -/
def Node.Within (limit level : Nat) : Node → Prop
  | .precision .. => True
  | .declaration _ _ _ value => Node.OptionWithin limit (level + 1) value
  | .assignment _ _ value => value.Within limit (level + 1)
  | .propertyAssignment target _ value =>
    target.Within limit (level + 1) ∧ value.Within limit (level + 1)
  | .expression value => value.Within limit (level + 1)
  | .empty => True
  | .function _ _ _ body => level + 1 < limit ∧ Node.ListWithin limit (level + 1) body
  | .conditional condition body elseIfs elseBody =>
    condition.Within limit (level + 1) ∧
      (level + 1 < limit ∧ Node.ListWithin limit (level + 1) body) ∧
      Branch.ListWithin limit (level + 1) elseIfs ∧
      Node.OptionListWithin limit (level + 1) elseBody
  | .loop init check increment body =>
    init.Within limit (level + 1) ∧ check.Within limit (level + 1) ∧
      increment.Within limit (level + 1) ∧
      level + 1 < limit ∧ Node.ListWithin limit (level + 1) body
  | .returning value => Node.OptionWithin limit (level + 1) value
  | .breaking => True
  | .float _ => level ≤ limit
  | .int _ => level ≤ limit
  | .reference _ => level ≤ limit
  | .parenthesized value => level ≤ limit ∧ value.Within limit (level + 2)
  | .unary _ value => level ≤ limit ∧ value.Within limit (level + 2)
  | .call callee args =>
    level ≤ limit ∧ callee.Within limit level ∧ Node.ListWithin limit (level + 2) args
  | .binary _ operands => level ≤ limit ∧ Node.ListWithin limit level operands
  | .property value _ => level ≤ limit ∧ value.Within limit level
  | .crement _ trailing value =>
    level ≤ limit ∧ value.Within limit (if trailing then level else level + 2)
  | .chunk _ => level ≤ limit

/-- All nodes of a list are nested no more deeply than the limit allows. -/
def Node.ListWithin (limit level : Nat) : List Node → Prop
  | [] => True
  | node :: nodes => node.Within limit level ∧ Node.ListWithin limit level nodes

/-- An optional node is nested no more deeply than the limit allows. -/
def Node.OptionWithin (limit level : Nat) : Option Node → Prop
  | none => True
  | some node => node.Within limit level

/-- An optional list of statements is nested no more deeply than the limit allows. -/
def Node.OptionListWithin (limit level : Nat) : Option (List Node) → Prop
  | none => True
  | some nodes => level < limit ∧ Node.ListWithin limit level nodes

/-- The conditions and bodies of some branches are nested no more deeply than the limit
    allows. -/
def Branch.ListWithin (limit level : Nat) : List Branch → Prop
  | [] => True
  | branch :: branches => branch.Within limit level ∧ Branch.ListWithin limit level branches

/-- The condition and the body of a branch are nested no more deeply than the limit
    allows. -/
def Branch.Within (limit level : Nat) : Branch → Prop
  | .mk condition body =>
    condition.Within limit level ∧ level < limit ∧ Node.ListWithin limit level body

end

/-- Nodes are nested within a limit if each of them is. -/
theorem Node.listWithin_iff {limit level : Nat} {nodes : List Node} :
    Node.ListWithin limit level nodes ↔ ∀ node ∈ nodes, node.Within limit level := by
  induction nodes with
  | nil => simp [Node.ListWithin]
  | cons node nodes inductionHypothesis => simp [Node.ListWithin, inductionHypothesis]

/-- Branches are nested within a limit if each of them is. -/
theorem Branch.listWithin_iff {limit level : Nat} {branches : List Branch} :
    Branch.ListWithin limit level branches ↔
      ∀ branch ∈ branches, branch.Within limit level := by
  induction branches with
  | nil => simp [Branch.ListWithin]
  | cons branch branches inductionHypothesis => simp [Branch.ListWithin, inductionHypothesis]

/-- A value stands on no deeper level than the limit allows. -/
theorem Shaped.level_le {category : Category} {node : Node} {limit level : Nat}
    (shaped : Shaped category node) (valued : category.isStatement = false)
    (within : node.Within limit level) : level ≤ limit := by
  induction shaped with
  | float | int | reference => simpa only [Node.Within] using within
  | parenthesized | call | property | trailingCrement | unary | leadingCrement | binary =>
    simp only [Node.Within] at within
    exact within.1
  | ofPrimary _ found | ofOperand _ found => exact found rfl within
  | _ => exact Bool.noConfusion valued

/-- The greatest level on which an expression can stand. -/
def deepestLevel : Nat := maxDepth - 1

/-- A program is nested no more deeply than the limit allows: expressions stand on the levels
    up to the limit, and lists of statements on the levels below it. -/
def NestedProgram (limit : Nat) (nodes : List Node) : Prop :=
  0 < limit ∧ Node.ListWithin limit 0 nodes

end ShaderSource
