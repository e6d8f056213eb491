import ShaderSource.Proofs.Tree.Children

/-!
# Changing the children of a node

What a node is, what its children are and how deeply they are nested decide
about its shape. So a change that keeps the kinds, the shapes and the nesting of
the children of a node keeps the shape and the nesting of the node.
-/

namespace ShaderSource

variable {category : Category} {node : Node} {change : Node → Node}

/-- What stands in a node of a program has a shape of its own, and not the one of a node at the
    top. -/
theorem Shaped.child (shaped : Shaped category node) :
    ∀ child ∈ node.children, ∃ inner, inner ≠ .top ∧ Shaped inner child := by
  induction shaped with
  | ofPrimary _ found | ofOperand _ found | ofClause _ found | ofStatement _ found => exact found
  | parenthesized inner | property inner | trailingCrement inner | unary inner
  | leadingCrement inner | assignment _ inner | expression inner =>
    exact List.forall_mem_singleton.mpr ⟨_, by decide, inner⟩
  | call called given =>
    exact List.forall_mem_cons.mpr
      ⟨⟨_, by decide, called⟩, fun arg member => ⟨_, by decide, given arg member⟩⟩
  | binary _ _ parts => exact fun operand member => ⟨_, by decide, parts operand member⟩
  | declaration _ _ value | qualified _ _ value | returning value =>
    exact fun child member => ⟨_, by decide, value child (Option.mem_toList.mp member)⟩
  | propertyAssignment owner _ assigned =>
    exact List.forall_mem_cons.mpr
      ⟨⟨_, by decide, owner⟩, List.forall_mem_singleton.mpr ⟨_, by decide, assigned⟩⟩
  | conditional guard guarded guards branches last =>
    refine Node.forall_mem_children_conditional.mpr ⟨⟨_, by decide, guard⟩, ?_, ?_, ?_⟩
    · exact fun child member => ⟨_, by decide, guarded child member⟩
    · exact fun branch among => ⟨⟨_, by decide, guards branch among⟩,
        fun child member => ⟨_, by decide, branches branch among child member⟩⟩
    · exact fun nodes given child member => ⟨_, by decide, last nodes given child member⟩
  | loop first second third repeated =>
    simp only [Node.children, List.forall_mem_cons]
    exact ⟨⟨_, by decide, first⟩, ⟨_, by decide, second⟩, ⟨_, by decide, third⟩,
      fun child member => ⟨_, by decide, repeated child member⟩⟩
  | function _ _ _ performed => exact fun child member => ⟨_, by decide, performed child member⟩
  | _ => exact fun _ member => absurd member List.not_mem_nil

/-- The kind of a node decides whether it can be stepped. -/
theorem Node.isCrementTarget_eq (node : Node) :
    node.isCrementTarget = (node.kind = .reference || node.kind = .property) := by
  cases node <;> rfl

/-- Being a property is a matter of the kind. -/
theorem Node.isProperty_eq (node : Node) : node.isProperty = decide (node.kind = .property) := by
  cases node <;> rfl

/-- A node of the same kind can be stepped too. -/
theorem Node.isCrementTarget_of_kind {other : Node} (kinds : other.kind = node.kind)
    (target : node.isCrementTarget = true) : other.isCrementTarget = true := by
  rw [isCrementTarget_eq, kinds, ← isCrementTarget_eq, target]

/-- A node of the same kind is a property too. -/
theorem Node.isProperty_of_kind {other : Node} (kinds : other.kind = node.kind)
    (property : node.isProperty = true) : other.isProperty = true := by
  rw [isProperty_eq, kinds, ← isProperty_eq, property]

section Parts

variable {nodes : List Node} {value : Option Node}

/-- A change that keeps shapes keeps those of a list of nodes. -/
theorem Shaped.mapList (shaped : ∀ node ∈ nodes, Shaped category node)
    (each : ∀ child ∈ nodes, ∀ inner, Shaped inner child → Shaped inner (change child)) :
    ∀ node ∈ nodes.map change, Shaped category node :=
  List.forall_mem_map.mpr fun node member => each node member _ (shaped node member)

/-- A change that keeps shapes keeps that of a node that may be missing. -/
theorem Shaped.mapOption (shaped : ∀ node, value = some node → Shaped category node)
    (each : ∀ child ∈ value.toList, ∀ inner, Shaped inner child → Shaped inner (change child)) :
    ∀ node, value.map change = some node → Shaped category node := by
  rintro _ same
  obtain ⟨node, rfl, rfl⟩ := Option.map_eq_some_iff.mp same
  exact each node (Option.mem_toList.mpr rfl) _ (shaped node rfl)

end Parts

/-- A change that keeps the kinds and the shapes of the children keeps the shape. -/
theorem Shaped.mapChildren (shaped : Shaped category node)
    (kinds : ∀ child ∈ node.children, (change child).kind = child.kind)
    (each : ∀ child ∈ node.children, ∀ inner, Shaped inner child → Shaped inner (change child)) :
    Shaped category (node.mapChildren change) := by
  induction shaped with
  | float written => exact .float written
  | int written => exact .int written
  | reference named => exact .reference named
  | empty => exact .empty
  | breaking => exact .breaking
  | precision graded typed => exact .precision graded typed
  | ofPrimary _ found => exact .ofPrimary (found kinds each)
  | ofOperand _ found => exact .ofOperand (found kinds each)
  | ofClause _ found => exact .ofClause (found kinds each)
  | ofStatement _ found => exact .ofStatement (found kinds each)
  | parenthesized inner => exact .parenthesized (each _ List.mem_cons_self _ inner)
  | property inner named => exact .property (each _ List.mem_cons_self _ inner) named
  | trailingCrement stepped target =>
    exact .trailingCrement (each _ List.mem_cons_self _ stepped)
      (Node.isCrementTarget_of_kind (kinds _ List.mem_cons_self) target)
  | leadingCrement stepped target =>
    exact .leadingCrement (each _ List.mem_cons_self _ stepped)
      (Node.isCrementTarget_of_kind (kinds _ List.mem_cons_self) target)
  | unary inner => exact .unary (each _ List.mem_cons_self _ inner)
  | call called given =>
    rw [Node.children, List.forall_mem_cons] at each
    exact .call (each.1 _ called) (.mapList given each.2)
  | binary linked count parts =>
    exact .binary linked ((List.length_map _).trans count) (.mapList parts each)
  | declaration typed named value => exact .declaration typed named (.mapOption value each)
  | qualified typed named value => exact .qualified typed named (.mapOption value each)
  | returning value => exact .returning (.mapOption value each)
  | assignment named assigned => exact .assignment named (each _ List.mem_cons_self _ assigned)
  | expression inner => exact .expression (each _ List.mem_cons_self _ inner)
  | propertyAssignment owner property assigned =>
    rw [Node.children, List.forall_mem_cons, List.forall_mem_singleton] at each
    exact .propertyAssignment (each.1 _ owner)
      (Node.isProperty_of_kind (kinds _ List.mem_cons_self) property) (each.2 _ assigned)
  | conditional guard guarded guards branches last =>
    obtain ⟨first, body, others, ending⟩ := Node.forall_mem_children_conditional.mp each
    refine .conditional (first _ guard) (.mapList guarded body) ?guards ?branches ?last
    case guards =>
      refine List.forall_mem_map.mpr fun branch among => ?_
      rw [Branch.condition_mapChildren]
      exact (others branch among).1 _ (guards branch among)
    case branches =>
      refine List.forall_mem_map.mpr fun branch among => ?_
      rw [Branch.body_mapChildren]
      exact .mapList (branches branch among) (others branch among).2
    case last =>
      rintro _ same
      obtain ⟨nodes, given, rfl⟩ := Option.map_eq_some_iff.mp same
      exact .mapList (last nodes given) (ending nodes given)
  | loop first second third repeated =>
    simp only [Node.children, List.forall_mem_cons] at each
    exact .loop (each.1 _ first) (each.2.1 _ second) (each.2.2.1 _ third)
      (.mapList repeated each.2.2.2)
  | function typed named declared performed =>
    exact .function typed named declared (.mapList performed each)

section Nesting

variable {limit level : Nat}

/-- A change that nests no node deeper nests no list of nodes deeper. -/
theorem Node.ListWithin.map {nodes : List Node} (within : Node.ListWithin limit level nodes)
    (each : ∀ child ∈ nodes, ∀ level, child.Within limit level →
      (change child).Within limit level) :
    Node.ListWithin limit level (nodes.map change) :=
  Node.listWithin_iff.mpr (List.forall_mem_map.mpr fun node member =>
    each node member _ (Node.listWithin_iff.mp within node member))

/-- A change that nests no node deeper nests no branch deeper. -/
theorem Branch.ListWithin.map {branches : List Branch}
    (within : Branch.ListWithin limit level branches)
    (each : ∀ branch ∈ branches, ∀ child ∈ branch.children, ∀ level, child.Within limit level →
      (change child).Within limit level) :
    Branch.ListWithin limit level (branches.map (Branch.mapChildren change)) := by
  refine Branch.listWithin_iff.mpr (List.forall_mem_map.mpr fun branch member => ?_)
  have inside := Branch.listWithin_iff.mp within branch member
  have parts := each branch member
  cases branch with
  | mk condition body =>
    rw [Branch.children, List.forall_mem_cons] at parts
    exact ⟨parts.1 _ inside.1, inside.2.1, inside.2.2.map parts.2⟩

/-- A change that keeps the nesting of the children keeps the nesting. -/
theorem Node.Within.mapChildren (within : node.Within limit level)
    (each : ∀ child ∈ node.children, ∀ level, child.Within limit level →
      (change child).Within limit level) :
    (node.mapChildren change).Within limit level := by
  cases node with
  | declaration _ _ _ value | returning value =>
    cases value with
    | none => trivial
    | some value => exact each value List.mem_cons_self _ within
  | assignment | expression => exact each _ List.mem_cons_self _ within
  | parenthesized | unary | property | crement =>
    exact ⟨within.1, each _ List.mem_cons_self _ within.2⟩
  | propertyAssignment =>
    rw [children, List.forall_mem_cons, List.forall_mem_singleton] at each
    exact ⟨each.1 _ within.1, each.2 _ within.2⟩
  | function | binary => exact ⟨within.1, ListWithin.map within.2 each⟩
  | call =>
    rw [children, List.forall_mem_cons] at each
    exact ⟨within.1, each.1 _ within.2.1, ListWithin.map within.2.2 each.2⟩
  | loop =>
    simp only [children, List.forall_mem_cons] at each
    obtain ⟨first, second, third, below, repeated⟩ := within
    exact ⟨each.1 _ first, each.2.1 _ second, each.2.2.1 _ third, below,
      repeated.map each.2.2.2⟩
  | conditional _ _ _ elseBody =>
    obtain ⟨first, body, others, ending⟩ := forall_mem_children_conditional.mp each
    obtain ⟨guard, ⟨below, guarded⟩, branches, last⟩ := within
    refine ⟨first _ guard, ⟨below, guarded.map body⟩, branches.map ?_, ?_⟩
    · exact fun branch among => Branch.forall_mem_children.mpr (others branch among)
    · cases elseBody with
      | none => trivial
      | some nodes => exact ⟨last.1, ListWithin.map last.2 (ending nodes rfl)⟩
  | _ => exact within

end Nesting

end ShaderSource
