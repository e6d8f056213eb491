import ShaderSource.Proofs.Tree.Induction

/-!
# The nodes directly in a node

Each node has children, which stand directly in it, in the order in which they
are written, and a frame, which is all the rest of it: its kind, its texts and
operators, and where and how many children it has. A pass that changes children
alone leaves every frame as it is. What holds of a node whenever it holds of its
children holds of all nodes.
-/

namespace ShaderSource

/-- The condition of a branch and the statements that it guards. -/
def Branch.children : Branch → List Node
  | .mk condition body => condition :: body

/-- The nodes that stand directly in a node, in order. -/
def Node.children : Node → List Node
  | .declaration _ _ _ value => value.toList
  | .assignment _ _ value => [value]
  | .propertyAssignment target _ value => [target, value]
  | .expression value => [value]
  | .function _ _ _ body => body
  | .conditional condition body elseIfs elseBody =>
    condition :: body ++ elseIfs.flatMap Branch.children ++ elseBody.getD []
  | .loop init check increment body => init :: check :: increment :: body
  | .returning value => value.toList
  | .parenthesized value => [value]
  | .unary _ value => [value]
  | .call callee args => callee :: args
  | .binary _ operands => operands
  | .property value _ => [value]
  | .crement _ _ value => [value]
  | .precision .. | .empty | .breaking | .float .. | .int .. | .reference .. | .chunk .. => []

/-- Changes the condition of a branch and the statements that it guards. -/
def Branch.mapChildren (change : Node → Node) : Branch → Branch
  | .mk condition body => .mk (change condition) (body.map change)

/-- Changes the children of a node and nothing else. -/
def Node.mapChildren (change : Node → Node) : Node → Node
  | .precision level ty => .precision level ty
  | .declaration qualifier ty name value => .declaration qualifier ty name (value.map change)
  | .assignment name op value => .assignment name op (change value)
  | .propertyAssignment target op value => .propertyAssignment (change target) op (change value)
  | .expression value => .expression (change value)
  | .empty => .empty
  | .function returnType name params body => .function returnType name params (body.map change)
  | .conditional condition body elseIfs elseBody =>
    .conditional (change condition) (body.map change) (elseIfs.map (Branch.mapChildren change))
      (elseBody.map (List.map change))
  | .loop init check increment body =>
    .loop (change init) (change check) (change increment) (body.map change)
  | .returning value => .returning (value.map change)
  | .breaking => .breaking
  | .float text => .float text
  | .int text => .int text
  | .reference name => .reference name
  | .parenthesized value => .parenthesized (change value)
  | .unary op value => .unary op (change value)
  | .call callee args => .call (change callee) (args.map change)
  | .binary ops operands => .binary ops (operands.map change)
  | .property value name => .property (change value) name
  | .crement op trailing value => .crement op trailing (change value)
  | .chunk text => .chunk text

/-- A node with an empty statement in place of each child. -/
def Node.frame (node : Node) : Node := node.mapChildren fun _ => .empty

namespace Branch

/-- The children of a branch are its condition and the statements of its body. -/
theorem children_eq (branch : Branch) : branch.children = branch.condition :: branch.body := by
  cases branch with
  | mk => rfl

/-- A change of the children changes each of them in its place. -/
theorem children_mapChildren (change : Node → Node) (branch : Branch) :
    (branch.mapChildren change).children = branch.children.map change := by
  cases branch with
  | mk => rfl

/-- The condition of a branch is changed like the other children. -/
theorem condition_mapChildren (change : Node → Node) (branch : Branch) :
    (branch.mapChildren change).condition = change branch.condition := by
  cases branch with
  | mk => rfl

/-- The statements of a body are changed one by one. -/
theorem body_mapChildren (change : Node → Node) (branch : Branch) :
    (branch.mapChildren change).body = branch.body.map change := by
  cases branch with
  | mk => rfl

/-- Two changes of the children, one after the other, are one. -/
theorem mapChildren_mapChildren (change further : Node → Node) (branch : Branch) :
    (branch.mapChildren change).mapChildren further = branch.mapChildren (further ∘ change) := by
  cases branch with
  | mk => simp [mapChildren]

/-- A condition holds for the children of a branch if it does for its condition and its body. -/
theorem forall_mem_children {branch : Branch} {condition : Node → Prop} :
    (∀ child ∈ branch.children, condition child) ↔
      condition branch.condition ∧ ∀ child ∈ branch.body, condition child := by
  rw [children_eq, List.forall_mem_cons]

/-- Branches with frames in common are found from what stands in them one after the other. -/
theorem eq_of_frames {branches others : List Branch} {rest rest' : List Node}
    (frames : branches.map (mapChildren fun _ => .empty) = others.map (mapChildren fun _ => .empty))
    (same : branches.flatMap children ++ rest = others.flatMap children ++ rest') :
    branches = others ∧ rest = rest' := by
  induction branches generalizing others with
  | nil =>
    obtain rfl : others = [] := List.map_eq_nil_iff.mp frames.symm
    exact ⟨rfl, same⟩
  | cons branch branches inductionHypothesis =>
    cases others with
    | nil => exact absurd frames (List.cons_ne_nil _ _)
    | cons other others =>
      obtain ⟨condition, body⟩ := branch
      obtain ⟨condition', body'⟩ := other
      simp only [List.map_cons, List.cons.injEq, mapChildren, Branch.mk.injEq, true_and,
        List.flatMap_cons, children, List.cons_append, List.append_assoc] at frames same
      have lengths : body.length = body'.length := by simpa using congrArg List.length frames.1
      obtain ⟨bodies, later⟩ := List.append_inj same.2 lengths
      obtain ⟨rfl, ends⟩ := inductionHypothesis frames.2 later
      exact ⟨by rw [same.1, bodies], ends⟩

/-- A child is smaller than its branch. -/
theorem sizeOf_lt_of_mem_children {child : Node} {branch : Branch}
    (member : child ∈ branch.children) : sizeOf child < sizeOf branch := by
  cases branch with
  | mk condition body =>
    simp only [mk.sizeOf_spec]
    rcases List.mem_cons.mp member with rfl | member
    · omega
    · have smaller := List.sizeOf_lt_of_mem member
      omega

end Branch

namespace Node

/-- What holds of the children of a conditional, part by part. -/
theorem forall_mem_children_conditional {condition : Node} {body : List Node}
    {elseIfs : List Branch} {elseBody : Option (List Node)} {holds : Node → Prop} :
    (∀ child ∈ (conditional condition body elseIfs elseBody).children, holds child) ↔
      holds condition ∧ (∀ child ∈ body, holds child) ∧
        (∀ branch ∈ elseIfs, holds (Branch.condition branch) ∧
          ∀ child ∈ Branch.body branch, holds child) ∧
        ∀ nodes, elseBody = some nodes → ∀ child ∈ nodes, holds child := by
  have last : (∀ child ∈ elseBody.getD [], holds child) ↔
      ∀ nodes, elseBody = some nodes → ∀ child ∈ nodes, holds child := by
    cases elseBody <;> simp
  simp only [children, List.cons_append, List.forall_mem_cons, List.forall_mem_append,
    List.forall_mem_flatMap, Branch.forall_mem_children, last, and_assoc]

/-- A change of the children changes each of them in its place. -/
theorem children_mapChildren (change : Node → Node) (node : Node) :
    (node.mapChildren change).children = node.children.map change := by
  cases node with
  | declaration _ _ _ value | returning value => cases value <;> rfl
  | conditional condition body elseIfs elseBody =>
    have branches : (elseIfs.map (Branch.mapChildren change)).flatMap Branch.children =
        (elseIfs.flatMap Branch.children).map change := by
      simp only [List.flatMap_map, List.map_flatMap, Branch.children_mapChildren]
    cases elseBody <;> simp [mapChildren, children, branches]
  | _ => rfl

/-- A change of the children keeps the kind of a node. -/
theorem kind_mapChildren (change : Node → Node) (node : Node) :
    (node.mapChildren change).kind = node.kind := by cases node <;> rfl

/-- Two changes of the children, one after the other, are one. -/
theorem mapChildren_mapChildren (change further : Node → Node) (node : Node) :
    (node.mapChildren change).mapChildren further = node.mapChildren (further ∘ change) := by
  have branches : Branch.mapChildren further ∘ Branch.mapChildren change =
      Branch.mapChildren (further ∘ change) :=
    funext (Branch.mapChildren_mapChildren change further)
  have bodies : List.map further ∘ List.map change = List.map (further ∘ change) :=
    funext fun _ => List.map_map
  cases node <;> simp [mapChildren, branches, bodies]

/-- A change of the children keeps the frame. -/
theorem frame_mapChildren (change : Node → Node) (node : Node) :
    (node.mapChildren change).frame = node.frame := mapChildren_mapChildren change _ node

/-- A node is determined by its frame and its children. -/
theorem eq_of_frame {node other : Node} (frames : node.frame = other.frame)
    (same : node.children = other.children) : node = other := by
  have kinds : node.kind = other.kind := by
    rw [← kind_mapChildren (fun _ => .empty) node, ← kind_mapChildren (fun _ => .empty) other]
    exact congrArg kind frames
  cases node with
  | declaration _ _ _ value | returning value =>
    cases other with
    | declaration _ _ _ value' | returning value' =>
      have values : value = value' := by cases value <;> cases value' <;> simp_all [children]
      simp_all [frame, mapChildren]
    | _ => exact NodeKind.noConfusion kinds
  | conditional condition body elseIfs elseBody =>
    cases other with
    | conditional condition' body' elseIfs' elseBody' =>
      simp only [frame, mapChildren, conditional.injEq, true_and] at frames
      simp only [children, List.cons_append, List.append_assoc, List.cons.injEq] at same
      have lengths : body.length = body'.length := by simpa using congrArg List.length frames.1
      obtain ⟨bodies, later⟩ := List.append_inj same.2 lengths
      obtain ⟨branches, ends⟩ := Branch.eq_of_frames frames.2.1 later
      have last : elseBody = elseBody' := by cases elseBody <;> cases elseBody' <;> simp_all
      rw [same.1, bodies, branches, last]
    | _ => exact NodeKind.noConfusion kinds
  | _ => cases other <;> simp_all [frame, mapChildren, children]

/-- Changes that do the same to each child do the same to the node. -/
theorem mapChildren_congr {change other : Node → Node} {node : Node}
    (each : ∀ child ∈ node.children, change child = other child) :
    node.mapChildren change = node.mapChildren other := by
  cases node with
  | declaration _ _ _ value | returning value =>
    cases value with
    | none => rfl
    | some value => simp [mapChildren, each value (by simp [children])]
  | conditional condition body elseIfs elseBody =>
    obtain ⟨guard, guarded, branches, last⟩ := forall_mem_children_conditional.mp each
    have bodies := List.map_congr_left guarded
    have others : elseIfs.map (Branch.mapChildren change) =
        elseIfs.map (Branch.mapChildren other) := by
      apply List.map_congr_left
      rintro ⟨condition, body⟩ member
      obtain ⟨guard, guarded⟩ := branches _ member
      simp only [Branch.mapChildren, Branch.mk.injEq]
      exact ⟨guard, List.map_congr_left guarded⟩
    have final : elseBody.map (List.map change) = elseBody.map (List.map other) :=
      Option.map_congr fun nodes given => List.map_congr_left (last nodes given)
    simp only [mapChildren, guard, bodies, others, final]
  | _ => simp_all [mapChildren, children]

/-- To change no child is to change nothing. -/
theorem mapChildren_id (node : Node) : node.mapChildren id = node := by
  have branches : Branch.mapChildren id = id := by
    funext branch
    cases branch with
    | mk => simp [Branch.mapChildren]
  cases node <;> simp [mapChildren, branches]

/-- A change that leaves each child as it is leaves the node as it is. -/
theorem mapChildren_eq_self {change : Node → Node} {node : Node}
    (each : ∀ child ∈ node.children, change child = child) : node.mapChildren change = node :=
  (mapChildren_congr each).trans node.mapChildren_id

/-- A child is smaller than the node that it stands in. -/
theorem sizeOf_lt_of_mem_children {child node : Node} (member : child ∈ node.children) :
    sizeOf child < sizeOf node := by
  cases node with
  | declaration _ _ _ value | returning value =>
    obtain rfl : value = some child := Option.mem_toList.mp member
    simp only [declaration.sizeOf_spec, returning.sizeOf_spec, Option.some.sizeOf_spec]
    omega
  | function _ _ _ body | binary _ body =>
    have smaller := List.sizeOf_lt_of_mem (show child ∈ body from member)
    simp only [function.sizeOf_spec, binary.sizeOf_spec]
    omega
  | call callee args =>
    simp only [call.sizeOf_spec]
    rcases List.mem_cons.mp member with rfl | member
    · omega
    · have smaller := List.sizeOf_lt_of_mem member
      omega
  | loop init check increment body =>
    simp only [children, List.mem_cons] at member
    simp only [loop.sizeOf_spec]
    rcases member with rfl | rfl | rfl | member
    · omega
    · omega
    · omega
    · have smaller := List.sizeOf_lt_of_mem member
      omega
  | conditional condition body elseIfs elseBody =>
    simp only [children, List.cons_append, List.mem_cons, List.mem_append,
      List.mem_flatMap] at member
    simp only [conditional.sizeOf_spec]
    rcases member with rfl | (member | ⟨branch, among, member⟩) | member
    · omega
    · have smaller := List.sizeOf_lt_of_mem member
      omega
    · have smaller := List.sizeOf_lt_of_mem among
      have inner := branch.sizeOf_lt_of_mem_children member
      omega
    · cases elseBody with
      | none => exact absurd member List.not_mem_nil
      | some nodes =>
        have smaller := List.sizeOf_lt_of_mem (show child ∈ nodes from member)
        simp only [Option.some.sizeOf_spec]
        omega
  | propertyAssignment target _ value =>
    simp only [propertyAssignment.sizeOf_spec]
    rcases List.mem_cons.mp member with rfl | member
    · omega
    · obtain rfl := List.mem_singleton.mp member
      omega
  | assignment _ _ value | expression value | parenthesized value | unary _ value
  | property value _ | crement _ _ value =>
    obtain rfl := List.mem_singleton.mp member
    simp only [assignment.sizeOf_spec, expression.sizeOf_spec, parenthesized.sizeOf_spec,
      unary.sizeOf_spec, property.sizeOf_spec, crement.sizeOf_spec]
    omega
  | _ => exact absurd member List.not_mem_nil

/-- What holds of a node whenever it holds of its children holds of all nodes. -/
theorem childrenInduction {motive : Node → Prop}
    (step : ∀ node : Node, (∀ child ∈ node.children, motive child) → motive node) (node : Node) :
    motive node := by
  induction size : sizeOf node using Nat.strongRecOn generalizing node with
  | ind bound inductionHypothesis =>
    apply step
    intro child member
    exact inductionHypothesis _ (size ▸ sizeOf_lt_of_mem_children member) child rfl

end Node

end ShaderSource
