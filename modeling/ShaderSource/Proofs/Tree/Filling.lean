import Mathlib.Data.List.Basic
import ShaderSource.Proofs.Tree.Exchange

/-!
# Walks that fill nodes

A walker whose visitors only edit nodes without children, and put nothing into
them that any visitor looks at, fills these nodes and keeps the frames of all
others. It goes into what it has filled in and finds nothing to do there. So its
visitors are asked about all nodes of their kinds, each once and in their order.
-/

namespace ShaderSource

variable {σ : Type} {fill : Node → Option Node}

namespace Walker

/-- The visitors of a walker keep each node or edit it, whatever the state. A node that is edited
    has no children, and what is put into it are nodes without children and without visitors. -/
structure Fills (walker : Walker σ) (fill : Node → Option Node) : Prop where
  verdict : ∀ node visitor state, walker.visitor? node.kind = some visitor →
    (visitor node state).1 = (fill node).elim .keep .edit
  others : ∀ node, walker.visitor? node.kind = none → fill node = none
  hollow : ∀ {node filled}, fill node = some filled → node.children = []
  settled : ∀ {node filled}, fill node = some filled → ∀ child ∈ filled.children,
    child.children = [] ∧ walker.visitor? child.kind = none

namespace Fills

variable {walker : Walker σ}

/-- The visitor of a node is asked first. Then the walk goes on in the filled node, or in the node
    itself if it stays. -/
theorem judge_eq (fills : walker.Fills fill) (edited : Node → StateM σ Node) (node : Node)
    (kept : StateM σ Node) (state : σ) :
    walker.judge edited node kept state =
      ((fill node).elim kept edited) (walker.shown state node) := by
  rw [judge_eq_of_verdict (fun visitor => fills.verdict node visitor state)
    fun unasked => by rw [fills.others node unasked]; rfl]
  cases fill node <;> rfl

/-- Nothing in a filled node is changed or asked about. -/
theorem descend_filled (fills : walker.Fills fill) {node filled : Node}
    (found : fill node = some filled) (edited : Node → StateM σ Node) (state : σ) :
    walker.descend edited filled state = (filled, state) := by
  have each : ∀ child ∈ filled.children,
      walker.Makes edited id (fun state _ => state) child := by
    intro child member state
    obtain ⟨childless, unasked⟩ := fills.settled found child member
    have alone : ∀ inner ∈ child.children,
        walker.Makes edited id (fun state _ => state) inner := by simp [childless]
    rw [visit, fills.judge_eq, fills.others child unasked, Option.elim_none, descend_eq alone]
    simp [shown, unasked, childless, Node.mapChildren_id]
  rw [descend_eq each, Node.mapChildren_id, List.foldl_fixed]

/-- A visit fills what it reaches, and asks about it in order. The induction is on the node: what
    is known of its children is enough to go down into it, and a filled node has none. -/
theorem makes (fills : walker.Fills fill) (edits : Nat) (node : Node) :
    walker.Makes (walker.descendEdited (edits + 1)) (Node.exchanged fill)
      (fun state node => node.subtrees.foldl walker.shown state) node := by
  induction node using Node.childrenInduction with
  | step node inductionHypothesis =>
    intro state
    dsimp only
    rw [visit, fills.judge_eq, Node.subtrees_eq, List.foldl_cons, List.foldl_flatMap]
    cases found : fill node with
    | some filled =>
      rw [Option.elim_some, descendEdited, fills.descend_filled found, Node.exchanged_of_some found,
        fills.hollow found, List.foldl_nil]
    | none =>
      rw [Option.elim_none, descend_eq inductionHypothesis, Node.exchanged_of_none found]

/-- A walk fills what it reaches in each tree, and asks about all nodes in order. -/
theorem walk_eq (fills : walker.Fills fill) (nodes : List Node) (state : σ) :
    walker.walk nodes state = (nodes.map (Node.exchanged fill),
      (nodes.flatMap Node.subtrees).foldl walker.shown state) := by
  rw [walk, maxEdits, descendList_eq fun node _ => fills.makes 63 node, List.foldl_flatMap]

end Fills

end Walker

/-- Nodes that are exchanged and have no children hide nothing from a walk. -/
theorem reached_iff_stands (hollow : ∀ {node filled}, fill node = some filled → node.children = [])
    {nodes : List Node} {path : List Nat} {node : Node} :
    Reached fill nodes path node ↔ Stands nodes path node := by
  constructor
  · intro reached
    induction reached with
    | top stands => exact .top stands
    | inside stands _ _ inductionHypothesis => exact .inside stands rfl inductionHypothesis
  · intro stands
    induction stands with
    | top stands => exact .top stands
    | @inside nodes place path node inner stands _ below inductionHypothesis =>
      cases found : fill node with
      | none => exact .inside stands found inductionHypothesis
      | some filled =>
        rw [hollow found] at below
        cases below with
        | top stands => simp at stands
        | inside stands => simp at stands

/-- What holds of each filled node and the nodes in it, and of each other node with anything in
    place of its children, holds of all nodes after filling. -/
theorem Node.subtrees_exchanged (holds : Node → Prop)
    (filled : ∀ {node result}, fill node = some result → ∀ inner ∈ result.subtrees, holds inner)
    (node : Node)
    (kept : ∀ inner ∈ node.subtrees, fill inner = none → ∀ change, holds (inner.mapChildren change)) :
    ∀ inner ∈ (node.exchanged fill).subtrees, holds inner := by
  induction node using Node.childrenInduction with
  | step node inductionHypothesis =>
    cases found : fill node with
    | some result =>
      rw [Node.exchanged_of_some found]
      exact filled found
    | none =>
      rw [Node.exchanged_of_none found, Node.subtrees_eq, Node.children_mapChildren]
      intro inner member
      rcases List.mem_cons.mp member with rfl | member
      · refine kept node ?_ found _
        rw [Node.subtrees_eq]
        exact List.mem_cons_self
      · obtain ⟨changed, among, below⟩ := List.mem_flatMap.mp member
        obtain ⟨child, place, rfl⟩ := List.mem_map.mp among
        refine inductionHypothesis child place (fun deep inside => ?_) inner below
        refine kept deep ?_
        rw [Node.subtrees_eq]
        exact List.mem_cons_of_mem _ (List.mem_flatMap.mpr ⟨child, place, inside⟩)

end ShaderSource
