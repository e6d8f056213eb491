import ShaderSource.Proofs.Tree.Children

/-!
# Where nodes stand in trees

A node of some trees stands at a path: the place of its tree, and then one place
among the children of each node above it. When some nodes are exchanged for
others, what is below an exchanged node is not reached any more. The reached
nodes have an order: each one before those below it, and the children of a node
one after the other. This is the order of their paths.
-/

namespace ShaderSource

variable {exchange : Node → Option Node}

/-- A node stands at a path in some trees, and no node above it is exchanged. -/
inductive Reached (exchange : Node → Option Node) : List Node → List Nat → Node → Prop
  | top {nodes : List Node} {place : Nat} {node : Node} (stands : nodes[place]? = some node) :
      Reached exchange nodes [place] node
  | inside {nodes : List Node} {place : Nat} {path : List Nat} {node inner : Node}
      (stands : nodes[place]? = some node) (stays : exchange node = none)
      (reached : Reached exchange node.children path inner) :
      Reached exchange nodes (place :: path) inner

/-- A node stands at a path in some trees. -/
def Stands : List Node → List Nat → Node → Prop := Reached fun _ => none

/-- What there is for each of some nodes, with the place of the node in front of its paths. -/
def placed (visits : Node → List (List Nat × Node)) (nodes : List Node) :
    List (List Nat × Node) :=
  nodes.zipIdx.flatMap fun (node, place) => (visits node).map (Prod.map (place :: ·) id)

/-- A node and all that is reached below it, with their paths from the node. -/
def Node.visits (exchange : Node → Option Node) (node : Node) : List (List Nat × Node) :=
  ([], node) :: match exchange node with
    | some _ => []
    | none => node.children.attach.zipIdx.flatMap fun (⟨child, _⟩, place) =>
        (child.visits exchange).map (Prod.map (place :: ·) id)
termination_by sizeOf node
decreasing_by
  exact sizeOf_lt_of_mem_children ‹_›

namespace Node

/-- Below a node that stays its children are visited. -/
theorem visits_of_none {node : Node} (stays : exchange node = none) :
    node.visits exchange = ([], node) :: placed (visits exchange) node.children := by
  have places : node.children.zipIdx =
      node.children.attach.zipIdx.map (Prod.map Subtype.val id) := by
    rw [← List.zipIdx_map, List.attach_map_subtype_val]
  rw [visits, stays, placed, places, List.flatMap_map]
  rfl

/-- Below a node that is exchanged nothing is visited. -/
theorem visits_of_some {node replacement : Node} (exchanged : exchange node = some replacement) :
    node.visits exchange = [([], node)] := by
  rw [visits, exchanged]

end Node

section Placed

variable {visits : Node → List (List Nat × Node)} {nodes : List Node}

/-- What is found for some nodes is found for one of them, with its place in front of the path. -/
theorem mem_placed {path : List Nat} {inner : Node} :
    (path, inner) ∈ placed visits nodes ↔
      ∃ place rest node, path = place :: rest ∧ nodes[place]? = some node ∧
        (rest, inner) ∈ visits node := by
  simp only [placed, List.mem_flatMap, List.mem_map]
  constructor
  · rintro ⟨⟨node, place⟩, stands, ⟨rest, found⟩, member, same⟩
    obtain ⟨rfl, rfl⟩ := Prod.mk.inj same
    exact ⟨place, rest, node, rfl, List.mem_zipIdx_iff_getElem?.mp stands, member⟩
  · rintro ⟨place, rest, node, rfl, stands, member⟩
    exact ⟨(node, place), List.mem_zipIdx_iff_getElem?.mpr stands, (rest, inner), member, rfl⟩

/-- The paths of what is found for some nodes, node by node. -/
theorem placed_paths :
    (placed visits nodes).map Prod.fst =
      nodes.zipIdx.flatMap fun (node, place) => ((visits node).map Prod.fst).map (place :: ·) := by
  simp [placed, List.map_flatMap, Function.comp_def]

/-- The places are increasing, so the paths are. -/
theorem placed_increasing
    (each : ∀ node ∈ nodes, ((visits node).map Prod.fst).Pairwise (· < ·)) :
    ((placed visits nodes).map Prod.fst).Pairwise (· < ·) := by
  have places : nodes.zipIdx.Pairwise fun first second => first.2 < second.2 := by
    rw [← List.pairwise_map (f := Prod.snd), List.zipIdx_map_snd]
    exact List.pairwise_lt_range' 1
  rw [placed_paths, List.pairwise_flatMap]
  constructor
  · rintro ⟨node, place⟩ member
    have known := each node (List.mem_of_getElem? (List.mem_zipIdx_iff_getElem?.mp member))
    rw [List.pairwise_map]
    exact known.imp fun less => List.cons_lt_cons_iff.mpr (.inr ⟨rfl, less⟩)
  · refine places.imp fun {first second} less path member path' member' => ?_
    obtain ⟨rest, _, rfl⟩ := List.mem_map.mp member
    obtain ⟨rest', _, rfl⟩ := List.mem_map.mp member'
    exact List.cons_lt_cons_iff.mpr (.inl less)

/-- The nodes alone, without their paths. -/
theorem placed_nodes :
    (placed visits nodes).map Prod.snd = nodes.flatMap fun node => (visits node).map Prod.snd := by
  have fronts : nodes = nodes.zipIdx.map Prod.fst := (List.zipIdx_map_fst 0 nodes).symm
  rw [placed, List.map_flatMap, fronts, List.flatMap_map]
  simp [Function.comp_def]

end Placed

namespace Node

/-- A node and all that is reached below it. -/
def reached (exchange : Node → Option Node) (node : Node) : List Node :=
  (node.visits exchange).map Prod.snd

/-- Below a node that is exchanged nothing is reached. -/
theorem reached_of_some {node replacement : Node} (found : exchange node = some replacement) :
    node.reached exchange = [node] := by
  rw [reached, visits_of_some found]
  rfl

/-- Below a node that stays its children are reached. -/
theorem reached_of_none {node : Node} (stays : exchange node = none) :
    node.reached exchange = node :: node.children.flatMap (reached exchange) := by
  rw [reached, visits_of_none stays, List.map_cons, placed_nodes]
  rfl

/-- A node and all nodes in it, each before those below it. -/
def subtrees : Node → List Node := reached fun _ => none

/-- A node stands before the nodes below it, child by child. -/
theorem subtrees_eq (node : Node) : node.subtrees = node :: node.children.flatMap subtrees :=
  reached_of_none rfl

end Node

/-- The nodes that are reached are those that are visited. -/
theorem mem_placed_visits {nodes : List Node} {path : List Nat} {inner : Node} :
    (path, inner) ∈ placed (Node.visits exchange) nodes ↔ Reached exchange nodes path inner := by
  constructor
  · intro member
    induction path generalizing nodes with
    | nil =>
      obtain ⟨_, _, _, same, _⟩ := mem_placed.mp member
      exact absurd same (List.cons_ne_nil _ _).symm
    | cons place rest inductionHypothesis =>
      obtain ⟨_, _, node, same, stands, inside⟩ := mem_placed.mp member
      obtain ⟨rfl, rfl⟩ := List.cons.inj same
      cases exchanged : exchange node with
      | some replacement =>
        rw [Node.visits_of_some exchanged, List.mem_singleton] at inside
        obtain ⟨rfl, rfl⟩ := Prod.mk.inj inside
        exact .top stands
      | none =>
        rw [Node.visits_of_none exchanged, List.mem_cons] at inside
        rcases inside with same | inside
        · obtain ⟨rfl, rfl⟩ := Prod.mk.inj same
          exact .top stands
        · exact .inside stands exchanged (inductionHypothesis inside)
  · intro reached
    induction reached with
    | @top nodes place node stands =>
      refine mem_placed.mpr ⟨place, [], node, rfl, stands, ?_⟩
      rw [Node.visits]
      exact List.mem_cons_self
    | @inside nodes place path node inner stands stays _ inductionHypothesis =>
      refine mem_placed.mpr ⟨place, path, node, rfl, stands, ?_⟩
      rw [Node.visits_of_none stays]
      exact List.mem_cons_of_mem _ inductionHypothesis

/-- The paths of the visited nodes are increasing. -/
theorem placed_visits_increasing (nodes : List Node) :
    ((placed (Node.visits exchange) nodes).map Prod.fst).Pairwise (· < ·) := by
  suffices each : ∀ node : Node, ((node.visits exchange).map Prod.fst).Pairwise (· < ·) from
    placed_increasing fun node _ => each node
  intro node
  induction node using Node.childrenInduction with
  | step node inductionHypothesis =>
    cases exchanged : exchange node with
    | some replacement =>
      rw [Node.visits_of_some exchanged]
      exact List.pairwise_singleton _ _
    | none =>
      rw [Node.visits_of_none exchanged, List.map_cons, List.pairwise_cons]
      refine ⟨fun path member => ?_, placed_increasing inductionHypothesis⟩
      obtain ⟨⟨path, inner⟩, visited, rfl⟩ := List.mem_map.mp member
      obtain ⟨place, rest, _, rfl, _⟩ := mem_placed.mp visited
      exact List.nil_lt_cons place rest

end ShaderSource
