import ShaderSource.Proofs.Tree.Children
import ShaderSource.Tree.Walker

/-!
# Going down into the children of a node

A walker goes down into all children of a node, one after the other in their
order, and changes nothing else of the node. So what a walk makes of a node is
known once it is known for the children of each node.
-/

namespace ShaderSource

namespace Walker

variable {σ : Type}

/-- Visits a node: asks its visitor, and goes down into its children if the node stays. -/
def visit (walker : Walker σ) (edited : Node → StateM σ Node) (node : Node) : StateM σ Node :=
  walker.judge edited node (walker.descend edited node)

variable {walker : Walker σ} {edited : Node → StateM σ Node} {change : Node → Node}
  {update : σ → Node → σ}

/-- A visit of the node changes it and the state in a known way. -/
def Makes (walker : Walker σ) (edited : Node → StateM σ Node) (change : Node → Node)
    (update : σ → Node → σ) (node : Node) : Prop :=
  ∀ state, walker.visit edited node state = (change node, update state node)

/-- A visit is followed by what comes after it, with the changed node in the changed state. -/
theorem Makes.bind {α : Type} {node : Node} (makes : walker.Makes edited change update node)
    (next : Node → StateM σ α) (state : σ) :
    (walker.judge edited node (walker.descend edited node) >>= next) state =
      next (change node) (update state node) := by
  have visited : walker.judge edited node (walker.descend edited node) state =
      (change node, update state node) := makes state
  simp only [Bind.bind, StateT.bind, visited]

/-- Nodes that are made something of one by one are changed in their order. -/
theorem descendList_eq {nodes : List Node}
    (each : ∀ node ∈ nodes, walker.Makes edited change update node) (state : σ) :
    walker.descendList edited nodes state = (nodes.map change, nodes.foldl update state) := by
  induction nodes generalizing state with
  | nil => rfl
  | cons node nodes inductionHypothesis =>
    rw [List.forall_mem_cons] at each
    rw [descendList, each.1.bind]
    simp only [Bind.bind, StateT.bind, inductionHypothesis each.2]
    rfl

/-- A node that may be missing is changed if it is there. -/
theorem descendOption_eq {value : Option Node}
    (each : ∀ node ∈ value.toList, walker.Makes edited change update node) (state : σ) :
    walker.descendOption edited value state =
      (value.map change, value.toList.foldl update state) := by
  cases value with
  | none => rfl
  | some node => exact (each node List.mem_cons_self).bind _ state

/-- A body that may be missing is changed node by node. -/
theorem descendOptionList_eq {last : Option (List Node)}
    (each : ∀ node ∈ last.getD [], walker.Makes edited change update node) (state : σ) :
    walker.descendOptionList edited last state =
      (last.map (List.map change), (last.getD []).foldl update state) := by
  cases last with
  | none => rfl
  | some nodes =>
    rw [Option.getD_some] at each
    simp only [descendOptionList, Bind.bind, StateT.bind, descendList_eq each]
    rfl

/-- The condition of a branch is changed before the statements of its body. -/
theorem descendBranch_eq {branch : Branch}
    (each : ∀ node ∈ branch.children, walker.Makes edited change update node) (state : σ) :
    walker.descendBranch edited branch state =
      (branch.mapChildren change, branch.children.foldl update state) := by
  cases branch with
  | mk condition body =>
    rw [Branch.children, List.forall_mem_cons] at each
    rw [descendBranch, each.1.bind]
    simp only [Bind.bind, StateT.bind, descendList_eq each.2]
    rfl

/-- Branches are changed one after the other. -/
theorem descendBranches_eq {branches : List Branch}
    (each : ∀ node ∈ branches.flatMap Branch.children, walker.Makes edited change update node)
    (state : σ) :
    walker.descendBranches edited branches state =
      (branches.map (Branch.mapChildren change),
        (branches.flatMap Branch.children).foldl update state) := by
  induction branches generalizing state with
  | nil => rfl
  | cons branch branches inductionHypothesis =>
    rw [List.flatMap_cons, List.forall_mem_append] at each
    rw [List.flatMap_cons, List.foldl_append]
    simp only [descendBranches, Bind.bind, StateT.bind, descendBranch_eq each.1,
      inductionHypothesis each.2]
    rfl

/-- Going down into a node changes its children, in order, and nothing else of it. -/
theorem descend_eq {node : Node}
    (each : ∀ child ∈ node.children, walker.Makes edited change update child) (state : σ) :
    walker.descend edited node state =
      (node.mapChildren change, node.children.foldl update state) := by
  cases node with
  | declaration _ _ _ value | returning value =>
    simp only [descend, Bind.bind, StateT.bind, descendOption_eq each]
    rfl
  | assignment _ _ value | expression value | parenthesized value | unary _ value
  | property value _ | crement _ _ value =>
    rw [descend, (each value List.mem_cons_self).bind]
    rfl
  | propertyAssignment target _ value =>
    simp only [Node.children, List.forall_mem_cons] at each
    rw [descend, each.1.bind, each.2.1.bind]
    rfl
  | function _ _ _ body | binary _ body =>
    rw [Node.children] at each
    simp only [descend, Bind.bind, StateT.bind, descendList_eq each]
    rfl
  | conditional condition body elseIfs elseBody =>
    simp only [Node.children, List.cons_append, List.forall_mem_cons,
      List.forall_mem_append] at each
    obtain ⟨guard, ⟨guarded, branches⟩, last⟩ := each
    rw [descend, guard.bind]
    simp only [Bind.bind, StateT.bind, descendList_eq guarded, descendBranches_eq branches,
      descendOptionList_eq last]
    simp only [Node.children, List.cons_append, List.foldl_cons, List.foldl_append]
    rfl
  | loop init check increment body =>
    simp only [Node.children, List.forall_mem_cons] at each
    obtain ⟨first, second, third, repeated⟩ := each
    rw [descend, first.bind, second.bind, third.bind]
    simp only [Bind.bind, StateT.bind, descendList_eq repeated]
    rfl
  | call callee args =>
    rw [Node.children, List.forall_mem_cons] at each
    rw [descend, each.1.bind]
    simp only [Bind.bind, StateT.bind, descendList_eq each.2]
    rfl
  | _ => rfl

end Walker

end ShaderSource
