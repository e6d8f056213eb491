import ShaderSource.Proofs.Tree.Reach

/-!
# The first and the last node

The subtrees of some trees are ordered by their paths, each node before those
below it. A search through them in this order finds something for the node with
the least path, and a search from their end for the node with the greatest one.
-/

namespace ShaderSource

variable {α : Type}

/-- A search along a relation finds the value of an element before which nothing is found.
    No two elements stand before one another. -/
theorem findSome?_eq_some_of_pairwise {β : Type} {before : β → β → Prop} {items : List β}
    (ordered : items.Pairwise before) (asymmetric : ∀ left right, before left right →
      ¬ before right left) {find? : β → Option α} {value : α} :
    items.findSome? find? = some value ↔
      ∃ item ∈ items, find? item = some value ∧
        ∀ earlier ∈ items, before earlier item → find? earlier = none := by
  rw [List.findSome?_eq_some_iff]
  constructor
  · rintro ⟨front, item, rest, rfl, found, missed⟩
    refine ⟨item, by simp, found, fun earlier member precedes => ?_⟩
    have behind : ∀ later ∈ rest, before item later := by
      have split := (List.pairwise_append.mp ordered).2.1
      exact (List.pairwise_cons.mp split).1
    rcases List.mem_append.mp member with member | member
    · exact missed earlier member
    · rcases List.mem_cons.mp member with rfl | member
      · exact absurd precedes (asymmetric _ _ precedes)
      · exact absurd precedes (asymmetric _ _ (behind earlier member))
  · rintro ⟨item, member, found, missed⟩
    obtain ⟨front, rest, rfl⟩ := List.append_of_mem member
    refine ⟨front, item, rest, rfl, found, fun earlier inside => ?_⟩
    have precedes := (List.pairwise_append.mp ordered).2.2 earlier inside item (by simp)
    exact missed earlier (by simp [inside]) precedes

section Search

variable {nodes : List Node} {find? : Node → Option α} {value : α}

/-- All nodes in some trees with their paths, in the order of the paths. -/
def standing (nodes : List Node) : List (List Nat × Node) := placed (Node.visits fun _ => none) nodes

/-- The nodes that are listed are those that stand in the trees. -/
theorem mem_standing {path : List Nat} {node : Node} :
    (path, node) ∈ standing nodes ↔ Stands nodes path node := mem_placed_visits

/-- The nodes in some trees are listed in the order of their paths. -/
theorem standing_increasing (nodes : List Node) :
    (standing nodes).Pairwise fun first second => first.1 < second.1 :=
  List.pairwise_map.mp (placed_visits_increasing nodes)

/-- The nodes in some trees are the subtrees of one tree after the other. -/
theorem standing_nodes (nodes : List Node) :
    (standing nodes).map Prod.snd = nodes.flatMap Node.subtrees := placed_nodes

/-- A node is among the subtrees of some trees if it stands somewhere in them. -/
theorem mem_subtrees_iff {node : Node} :
    node ∈ nodes.flatMap Node.subtrees ↔ ∃ path, Stands nodes path node := by
  rw [← standing_nodes, List.mem_map]
  constructor
  · rintro ⟨⟨path, node⟩, member, rfl⟩
    exact ⟨path, mem_standing.mp member⟩
  · rintro ⟨path, stands⟩
    exact ⟨(path, node), mem_standing.mpr stands, rfl⟩

/-- A search through the nodes of some trees in an order of their paths. -/
theorem findSome?_ordered (before : List Nat → List Nat → Prop) {items : List (List Nat × Node)}
    (members : ∀ path node, (path, node) ∈ items ↔ Stands nodes path node)
    (ordered : items.Pairwise fun first second => before first.1 second.1)
    (asymmetric : ∀ left right, before left right → ¬ before right left) :
    (items.map Prod.snd).findSome? find? = some value ↔
      ∃ path node, Stands nodes path node ∧ find? node = some value ∧
        ∀ earlier other, before earlier path → Stands nodes earlier other → find? other = none := by
  rw [List.findSome?_map, findSome?_eq_some_of_pairwise ordered fun _ _ => asymmetric _ _]
  constructor
  · rintro ⟨⟨path, node⟩, member, found, missed⟩
    refine ⟨path, node, (members path node).mp member, found, ?_⟩
    intro earlier other precedes stands
    exact missed (earlier, other) ((members earlier other).mpr stands) precedes
  · rintro ⟨path, node, stands, found, missed⟩
    refine ⟨(path, node), (members path node).mpr stands, found, ?_⟩
    rintro ⟨earlier, other⟩ member precedes
    exact missed earlier other precedes ((members earlier other).mp member)

/-- What is found first in some trees is found for a node, and for none with a smaller path. -/
theorem findSome?_subtrees :
    (nodes.flatMap Node.subtrees).findSome? find? = some value ↔
      ∃ path node, Stands nodes path node ∧ find? node = some value ∧
        ∀ earlier other, earlier < path → Stands nodes earlier other → find? other = none := by
  rw [← standing_nodes]
  exact findSome?_ordered (· < ·) (fun _ _ => mem_standing) (standing_increasing nodes)
    fun _ _ => List.lt_asymm

/-- What is found last in some trees is found for a node, and for none with a greater path. -/
theorem findSome?_subtrees_reverse :
    (nodes.flatMap Node.subtrees).reverse.findSome? find? = some value ↔
      ∃ path node, Stands nodes path node ∧ find? node = some value ∧
        ∀ later other, path < later → Stands nodes later other → find? other = none := by
  rw [← standing_nodes, ← List.map_reverse]
  refine findSome?_ordered (fun first second => second < first) ?_ ?_ ?_
  · intro path node
    rw [List.mem_reverse, mem_standing]
  · exact List.pairwise_reverse.mpr (standing_increasing nodes)
  · exact fun _ _ => List.lt_asymm

/-- Nothing is found in some trees if it is found for no node that stands in them. -/
theorem findSome?_subtrees_eq_none :
    (nodes.flatMap Node.subtrees).findSome? find? = none ↔
      ∀ path node, Stands nodes path node → find? node = none := by
  rw [List.findSome?_eq_none_iff]
  constructor
  · intro missed path node stands
    exact missed node (mem_subtrees_iff.mpr ⟨path, stands⟩)
  · intro missed node member
    obtain ⟨path, stands⟩ := mem_subtrees_iff.mp member
    exact missed path node stands

end Search

end ShaderSource
