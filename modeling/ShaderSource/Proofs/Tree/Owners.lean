import Mathlib.Data.List.Basic
import ShaderSource.Proofs.Tree.Frame
import ShaderSource.Proofs.Tree.Parts
import ShaderSource.Proofs.Tree.Reach

/-!
# The nodes that own the pieces of a tree

Each piece of a tree is owned by one node: the one that it is a piece of, and
not only a piece of a child. The numbers and the uses of variables are the
pieces of nodes without children, and they stand in the order of these nodes.
-/

namespace ShaderSource

namespace Node

/-- The parts of a node that are nodes are children of it. -/
theorem mem_children_of_mem_parts {node child : Node} {closed inner : Bool}
    (member : .child inner child ∈ node.parts closed) : child ∈ node.children := by
  rw [← filterMap_parts closed]
  exact List.mem_filterMap.mpr ⟨_, member, rfl⟩

/-- The pieces of a node with the kinds of the nodes that own them. -/
def owned (closed : Bool) (node : Node) : List (NodeKind × Piece) :=
  (node.parts closed).attach.flatMap fun
    | ⟨.piece own, _⟩ => [(node.kind, own)]
    | ⟨.child inner child, _⟩ => child.owned inner
termination_by sizeOf node
decreasing_by exact sizeOf_lt_of_mem_children (mem_children_of_mem_parts ‹_›)

end Node

/-- The pieces of a part of a node of a kind, with the kinds of the nodes that own them. -/
def Part.owned (kind : NodeKind) : Part → List (NodeKind × Piece)
  | piece own => [(kind, own)]
  | child closed node => node.owned closed

namespace Node

/-- The pieces of a node are owned part by part. -/
theorem owned_eq (closed : Bool) (node : Node) :
    node.owned closed = (node.parts closed).flatMap (Part.owned node.kind) := by
  have parts := congrArg (List.flatMap (Part.owned node.kind))
    (List.attach_map_subtype_val (node.parts closed))
  rw [← parts, owned, List.flatMap_map]
  congr
  funext ⟨part, _⟩
  cases part <;> rfl

end Node

/-- The owned pieces of a node are its pieces. -/
theorem Shaped.owned_pieces {category : Category} {node : Node} (shaped : Shaped category node)
    (closed : Bool) : (node.owned closed).map Prod.snd = node.pieces closed := by
  induction node using Node.childrenInduction generalizing category closed with
  | step node inductionHypothesis =>
    rw [Node.owned_eq, shaped.pieces_eq, List.map_flatMap]
    apply List.flatMap_congr
    intro part member
    cases part with
    | piece => rfl
    | child inner child =>
      have below := Node.mem_children_of_mem_parts member
      obtain ⟨_, _, shaped⟩ := shaped.child child below
      exact inductionHypothesis child below shaped inner

namespace Node

/-- What is collected from the parts of a node comes from its children, in their order, if nothing
    comes from the pieces of the node itself. -/
theorem flatMap_parts {α : Type} {collect : Part → List α} {below : Node → List α} {closed : Bool}
    {node : Node} (own : ∀ piece, .piece piece ∈ node.parts closed → collect (.piece piece) = [])
    (children : ∀ inner child, .child inner child ∈ node.parts closed →
      collect (.child inner child) = below child) :
    (node.parts closed).flatMap collect = node.children.flatMap below := by
  rw [← filterMap_parts closed, List.filterMap_eq_flatMap_toList, List.flatMap_assoc]
  apply List.flatMap_congr
  intro part member
  cases part with
  | piece piece => exact own piece member
  | child inner child => simp [children inner child member, Part.child?]

/-- The pieces that are owned by nodes without children are those of these nodes, in the order in
    which they stand in a tree. -/
theorem owned_filter (wanted : NodeKind → Bool) {piece? : Node → Option Piece}
    (leaf : ∀ node piece, piece? node = some piece →
      wanted node.kind = true ∧ ∀ closed, node.parts closed = [.piece piece])
    (other : ∀ node, piece? node = none → wanted node.kind = false) (closed : Bool)
    (node : Node) :
    ((node.owned closed).filter fun own => wanted own.1).map Prod.snd =
      node.subtrees.filterMap piece? := by
  induction node using Node.childrenInduction generalizing closed with
  | step node inductionHypothesis =>
    rw [owned_eq, subtrees_eq, List.filterMap_cons]
    cases found : piece? node with
    | some piece =>
      obtain ⟨kind, parts⟩ := leaf node piece found
      have childless : node.children = [] := by
        rw [← filterMap_parts closed, parts closed]
        rfl
      simp [parts closed, childless, Part.owned, kind]
    | none =>
      have kind := other node found
      simp only [List.filter_flatMap, List.map_flatMap, List.filterMap_flatMap]
      apply flatMap_parts
      · simp [Part.owned, kind]
      · exact fun inner child member =>
          inductionHypothesis child (mem_children_of_mem_parts member) inner

end Node

end ShaderSource
