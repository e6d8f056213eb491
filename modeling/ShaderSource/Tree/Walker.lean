import ShaderSource.Tree.Node

/-!
# Walking through trees

A walker goes through a tree from the front to the back, each node before its
children. It holds at most one visitor for each kind of node. What a visitor
decides about a node is its verdict: the node is kept, or another node takes
its place. A replacement is not looked into; an edited node is, though its own
visitor is not asked again.

Visitors carry a state from one call to the next. An edit can put nodes in
place that are edited in their turn, without an end if the visitors go on like
this. The rules of a walk set no limit to it. Only in order that every walk has a
result, the edits inside one another are counted here, and what the last one that
is let through puts in place stays as it is. Visitors that make fewer edits inside
one another never notice.
-/

namespace ShaderSource

/-- What a visitor decides about a node. -/
inductive Verdict where
  /-- The node stays, and its children are visited. -/
  | keep
  /-- The node becomes another one, whose children are visited. -/
  | edit (node : Node)
  /-- Another node takes the place of the node and is not visited. -/
  | replace (node : Node)

/-- A visitor decides about a node and may change the state. -/
abbrev Visitor (σ : Type) : Type := Node → StateM σ Verdict

/-- The visitors for the kinds of nodes. -/
structure Walker (σ : Type) where
  visitor? : NodeKind → Option (Visitor σ)

namespace Walker

variable {σ : Type}

/-- The walker without visitors. -/
def empty : Walker σ := ⟨fun _ => none⟩

/-- Sets the visitor for a kind of nodes in place of the one before. -/
def on (walker : Walker σ) (kind : NodeKind) (visitor : Visitor σ) : Walker σ :=
  ⟨fun asked => if asked = kind then some visitor else walker.visitor? asked⟩

/-- Carries out the verdict about a node. `kept` goes on with the children of the node,
    and `edited` with those of another one. -/
def judge (walker : Walker σ) (edited : Node → StateM σ Node) (node : Node)
    (kept : StateM σ Node) : StateM σ Node :=
  match walker.visitor? node.kind with
  | none => kept
  | some visitor => do
    match ← visitor node with
    | .keep => kept
    | .edit changed => edited changed
    | .replace replacement => return replacement

mutual

/-- Visits the children of a node. -/
def descend (walker : Walker σ) (edited : Node → StateM σ Node) : Node → StateM σ Node
  | .precision level ty => return .precision level ty
  | .declaration qualifier ty name value => do
    let value ← walker.descendOption edited value
    return .declaration qualifier ty name value
  | .assignment name op value => do
    let value ← walker.judge edited value (walker.descend edited value)
    return .assignment name op value
  | .propertyAssignment target op value => do
    let target ← walker.judge edited target (walker.descend edited target)
    let value ← walker.judge edited value (walker.descend edited value)
    return .propertyAssignment target op value
  | .expression value => do
    let value ← walker.judge edited value (walker.descend edited value)
    return .expression value
  | .empty => return .empty
  | .function returnType name params body => do
    let body ← walker.descendList edited body
    return .function returnType name params body
  | .conditional condition body elseIfs elseBody => do
    let condition ← walker.judge edited condition (walker.descend edited condition)
    let body ← walker.descendList edited body
    let elseIfs ← walker.descendBranches edited elseIfs
    let elseBody ← walker.descendOptionList edited elseBody
    return .conditional condition body elseIfs elseBody
  | .loop init check increment body => do
    let init ← walker.judge edited init (walker.descend edited init)
    let check ← walker.judge edited check (walker.descend edited check)
    let increment ← walker.judge edited increment (walker.descend edited increment)
    let body ← walker.descendList edited body
    return .loop init check increment body
  | .returning value => do
    let value ← walker.descendOption edited value
    return .returning value
  | .breaking => return .breaking
  | .float text => return .float text
  | .int text => return .int text
  | .reference name => return .reference name
  | .parenthesized value => do
    let value ← walker.judge edited value (walker.descend edited value)
    return .parenthesized value
  | .unary op value => do
    let value ← walker.judge edited value (walker.descend edited value)
    return .unary op value
  | .call callee args => do
    let callee ← walker.judge edited callee (walker.descend edited callee)
    let args ← walker.descendList edited args
    return .call callee args
  | .binary ops operands => do
    let operands ← walker.descendList edited operands
    return .binary ops operands
  | .property value property => do
    let value ← walker.judge edited value (walker.descend edited value)
    return .property value property
  | .crement op trailing value => do
    let value ← walker.judge edited value (walker.descend edited value)
    return .crement op trailing value
  | .chunk text => return .chunk text

/-- Visits some nodes in turn. -/
def descendList (walker : Walker σ) (edited : Node → StateM σ Node) :
    List Node → StateM σ (List Node)
  | [] => return []
  | node :: nodes => do
    let node ← walker.judge edited node (walker.descend edited node)
    let nodes ← walker.descendList edited nodes
    return node :: nodes

/-- Visits an optional node. -/
def descendOption (walker : Walker σ) (edited : Node → StateM σ Node) :
    Option Node → StateM σ (Option Node)
  | none => return none
  | some node => do
    let node ← walker.judge edited node (walker.descend edited node)
    return some node

/-- Visits the nodes of an optional list. -/
def descendOptionList (walker : Walker σ) (edited : Node → StateM σ Node) :
    Option (List Node) → StateM σ (Option (List Node))
  | none => return none
  | some nodes => do
    let nodes ← walker.descendList edited nodes
    return some nodes

/-- Visits the condition and the body of a branch. -/
def descendBranch (walker : Walker σ) (edited : Node → StateM σ Node) :
    Branch → StateM σ Branch
  | .mk condition body => do
    let condition ← walker.judge edited condition (walker.descend edited condition)
    let body ← walker.descendList edited body
    return .mk condition body

/-- Visits some branches in turn. -/
def descendBranches (walker : Walker σ) (edited : Node → StateM σ Node) :
    List Branch → StateM σ (List Branch)
  | [] => return []
  | branch :: branches => do
    let branch ← walker.descendBranch edited branch
    let branches ← walker.descendBranches edited branches
    return branch :: branches

end

/-- How many edits are let through inside one another. The number stands for having no limit: it
    is no rule of a walk. -/
def maxEdits : Nat := 64

/-- Visits the children of an edited node, with a number of edits left inside it. -/
def descendEdited (walker : Walker σ) : (edits : Nat) → Node → StateM σ Node
  | 0 => fun node => return node
  | edits + 1 => walker.descend (walker.descendEdited edits)

/-- Walks through some trees in turn. -/
def walk (walker : Walker σ) (nodes : List Node) : StateM σ (List Node) :=
  walker.descendList (walker.descendEdited maxEdits) nodes

end Walker

end ShaderSource
