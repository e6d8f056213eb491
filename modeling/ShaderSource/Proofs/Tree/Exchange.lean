import ShaderSource.Proofs.Tree.Descent
import ShaderSource.Proofs.Tree.Reach

/-!
# Walks that exchange nodes

A walker whose visitors only keep nodes or put others in their places exchanges
just the nodes that it reaches and that are to be exchanged. Every other node
that it reaches keeps its frame. It asks the visitors about the nodes that it
reaches, each once and in their order, and never about a replacement or what
stands in one.
-/

namespace ShaderSource

variable {σ : Type} {exchange : Node → Option Node}

/-- What is done about a node with a verdict. -/
def Verdict.carryOut (edited : Node → StateM σ Node) (kept : StateM σ Node) :
    Verdict → StateM σ Node
  | .keep => kept
  | .edit changed => edited changed
  | .replace replacement => return replacement

namespace Walker

/-- The visitors of a walker keep each node or exchange it for another one, whatever the state.
    They edit none, and nodes without a visitor stay. -/
structure Exchanges (walker : Walker σ) (exchange : Node → Option Node) : Prop where
  verdict : ∀ node visitor state, walker.visitor? node.kind = some visitor →
    (visitor node state).1 = (exchange node).elim .keep .replace
  others : ∀ node, walker.visitor? node.kind = none → exchange node = none

/-- The state after the visitor of a node, if there is one, was asked about it. -/
def shown (walker : Walker σ) (state : σ) (node : Node) : σ :=
  match walker.visitor? node.kind with
  | none => state
  | some visitor => (visitor node state).2

/-- The verdict about a node is carried out after its visitor was asked, if there is one. -/
theorem judge_eq_of_verdict {walker : Walker σ} {node : Node} {state : σ} {verdict : Verdict}
    (asked : ∀ visitor, walker.visitor? node.kind = some visitor → (visitor node state).1 = verdict)
    (unasked : walker.visitor? node.kind = none → verdict = .keep)
    (edited : Node → StateM σ Node) (kept : StateM σ Node) :
    walker.judge edited node kept state =
      verdict.carryOut edited kept (walker.shown state node) := by
  cases known : walker.visitor? node.kind with
  | none =>
    rw [unasked known]
    simp only [judge, shown, known, Verdict.carryOut]
  | some visitor =>
    have decided := asked visitor known
    simp only [judge, shown, known, Bind.bind, StateT.bind]
    cases visited : visitor node state with
    | mk decision after =>
      rw [visited] at decided
      obtain rfl : decision = verdict := decided
      cases decision <;> rfl

namespace Exchanges

variable {walker : Walker σ}

/-- The visitor of a node is asked first. Then the replacement stands in its place, or what comes
    for a node that stays is done. -/
theorem judge_eq (exchanges : walker.Exchanges exchange) (edited : Node → StateM σ Node)
    (node : Node) (kept : StateM σ Node) (state : σ) :
    walker.judge edited node kept state =
      (exchange node).elim (kept (walker.shown state node))
        fun replacement => (replacement, walker.shown state node) := by
  rw [judge_eq_of_verdict (fun visitor => exchanges.verdict node visitor state)
    fun unasked => by rw [exchanges.others node unasked]; rfl]
  cases exchange node <;> rfl

/-- A node that is exchanged is replaced, and the visitor has seen it. -/
theorem judge_of_some (exchanges : walker.Exchanges exchange) {node replacement : Node}
    (found : exchange node = some replacement) (edited : Node → StateM σ Node)
    (kept : StateM σ Node) (state : σ) :
    walker.judge edited node kept state = (replacement, walker.shown state node) := by
  rw [exchanges.judge_eq, found, Option.elim_some]

/-- A node that stays is kept, and the visitor has seen it. -/
theorem judge_of_none (exchanges : walker.Exchanges exchange) {node : Node}
    (stays : exchange node = none) (edited : Node → StateM σ Node) (kept : StateM σ Node)
    (state : σ) : walker.judge edited node kept state = kept (walker.shown state node) := by
  rw [exchanges.judge_eq, stays, Option.elim_none]

end Exchanges

/-- The walker that exchanges nodes and has no state. -/
def exchanger (exchange : Node → Option Node) : Walker Unit :=
  ⟨fun _ => some fun node => pure ((exchange node).elim .keep .replace)⟩

/-- The exchanger makes its exchanges. -/
theorem exchanger_exchanges : (exchanger exchange).Exchanges exchange where
  verdict := by
    rintro node _ state ⟨⟩
    rfl
  others _ absent := absurd absent (Option.some_ne_none _)

end Walker

namespace Node

/-- What a node becomes when nodes in it are exchanged. -/
def exchanged (exchange : Node → Option Node) (node : Node) : Node :=
  ((Walker.exchanger exchange).visit pure node ()).1

/-- An exchange takes the place of a whole tree. -/
theorem exchanged_of_some {node replacement : Node} (found : exchange node = some replacement) :
    node.exchanged exchange = replacement := by
  rw [exchanged, Walker.visit, Walker.exchanger_exchanges.judge_of_some found]

/-- In a node that stays the children are exchanged. -/
theorem exchanged_of_none {node : Node} (stays : exchange node = none) :
    node.exchanged exchange = node.mapChildren (exchanged exchange) := by
  have each : ∀ child ∈ node.children, (Walker.exchanger exchange).Makes pure
      (exchanged exchange) (fun state _ => state) child := fun _ _ _ => rfl
  rw [exchanged, Walker.visit, Walker.exchanger_exchanges.judge_of_none stays,
    Walker.descend_eq each]

end Node

namespace Walker.Exchanges

variable {walker : Walker σ}

/-- A visit exchanges what it reaches, and asks about it in order. The induction is on the node:
    what is known of its children is enough to go down into it. -/
theorem makes (exchanges : walker.Exchanges exchange) (edited : Node → StateM σ Node)
    (node : Node) :
    walker.Makes edited (Node.exchanged exchange)
      (fun state node => (node.reached exchange).foldl walker.shown state) node := by
  induction node using Node.childrenInduction with
  | step node inductionHypothesis =>
    intro state
    cases found : exchange node with
    | some replacement =>
      simp only [visit, exchanges.judge_of_some found, Node.exchanged_of_some found,
        Node.reached_of_some found, List.foldl_cons, List.foldl_nil]
    | none =>
      simp only [visit, exchanges.judge_of_none found, descend_eq inductionHypothesis,
        Node.exchanged_of_none found, Node.reached_of_none found, List.foldl_cons,
        List.foldl_flatMap]

/-- A walk exchanges what it reaches in each tree, and asks about all of it in order. -/
theorem walk_eq (exchanges : walker.Exchanges exchange) (nodes : List Node) (state : σ) :
    walker.walk nodes state = (nodes.map (Node.exchanged exchange),
      (nodes.flatMap (Node.reached exchange)).foldl walker.shown state) := by
  rw [walk, descendList_eq fun node _ => exchanges.makes _ node, List.foldl_flatMap]

end Walker.Exchanges

/-- A node that is reached is where it was, with what is in it exchanged. -/
theorem Reached.exchanged {nodes : List Node} {path : List Nat} {node : Node}
    (reached : Reached exchange nodes path node) :
    Stands (nodes.map (Node.exchanged exchange)) path (node.exchanged exchange) := by
  induction reached with
  | top stands => exact .top (by rw [List.getElem?_map, stands]; rfl)
  | @inside nodes place path node inner stands stays _ inductionHypothesis =>
    have stands' : (nodes.map (Node.exchanged exchange))[place]? =
        some (node.exchanged exchange) := by rw [List.getElem?_map, stands]; rfl
    refine .inside stands' rfl ?_
    rw [Node.exchanged_of_none stays, Node.children_mapChildren]
    exact inductionHypothesis

/-- Some trees are others in which just the reached nodes that are to be exchanged were
    exchanged: there are as many trees, a replacement stands where its node stood, and every
    other node that is reached has kept its frame. -/
structure Exchanged (exchange : Node → Option Node) (before after : List Node) : Prop where
  count : after.length = before.length
  replaced : ∀ {path node replacement}, Reached exchange before path node →
    exchange node = some replacement → Stands after path replacement
  kept : ∀ {path node}, Reached exchange before path node → exchange node = none →
    ∃ same, Stands after path same ∧ same.frame = node.frame

/-- To exchange tree by tree is to exchange all trees. -/
theorem exchanged_map (exchange : Node → Option Node) (nodes : List Node) :
    Exchanged exchange nodes (nodes.map (Node.exchanged exchange)) where
  count := List.length_map _
  replaced reached found := by
    have stands := reached.exchanged
    rwa [Node.exchanged_of_some found] at stands
  kept {path node} reached stays := by
    refine ⟨_, reached.exchanged, ?_⟩
    rw [Node.exchanged_of_none stays, Node.frame_mapChildren]

namespace Exchanged

variable {before after : List Node}

/-- What holds of some trees holds below a node among them that stays. -/
theorem inside (exchanged : Exchanged exchange before after) {place : Nat} {node same : Node}
    (stands : before[place]? = some node) (stays : exchange node = none)
    (found : after[place]? = some same) (frames : same.frame = node.frame) :
    Exchanged exchange node.children same.children where
  count := by
    have counts := congrArg (fun node => node.children.length) frames
    simpa only [Node.frame, Node.children_mapChildren, List.length_map] using counts
  replaced reached known := by
    cases exchanged.replaced (.inside stands stays reached) known with
    | inside found' _ below =>
      obtain rfl := Option.some.inj (found.symm.trans found')
      exact below
    | top => cases reached
  kept reached known := by
    obtain ⟨inner, below, frames⟩ := exchanged.kept (.inside stands stays reached) known
    cases below with
    | inside found' _ below =>
      obtain rfl := Option.some.inj (found.symm.trans found')
      exact ⟨inner, below, frames⟩
    | top => cases reached

/-- Trees are known from what stands at each place. -/
theorem eq_map_of_places {change : Node → Node} (count : after.length = before.length)
    (each : ∀ (place : Nat) node, before[place]? = some node →
      after[place]? = some (change node)) :
    after = before.map change := by
  apply List.ext_getElem?
  intro place
  rw [List.getElem?_map]
  cases stands : before[place]? with
  | some node => exact each place node stands
  | none =>
    rw [List.getElem?_eq_none_iff, ← count] at stands
    exact List.getElem?_eq_none_iff.mpr stands

/-- What stands in place of a node. The induction is on this node: its frame is known, and so is
    what stands in place of its children. -/
theorem place_eq (node : Node) {before after : List Node} {place : Nat}
    (exchanged : Exchanged exchange before after) (stands : before[place]? = some node) :
    after[place]? = some (node.exchanged exchange) := by
  induction node using Node.childrenInduction generalizing before after place with
  | step node inductionHypothesis =>
    cases found : exchange node with
    | some replacement =>
      rw [Node.exchanged_of_some found]
      cases exchanged.replaced (.top stands) found with
      | top stands' => exact stands'
      | inside _ _ reached => cases reached
    | none =>
      obtain ⟨same, there, frames⟩ := exchanged.kept (.top stands) found
      cases there with
      | inside _ _ reached => cases reached
      | top stands' =>
        have below := exchanged.inside stands found stands' frames
        have children : same.children = node.children.map (Node.exchanged exchange) :=
          eq_map_of_places below.count fun _ child stands =>
            inductionHypothesis child (List.mem_of_getElem? stands) below stands
        rw [stands', Node.exchanged_of_none found]
        refine congrArg some (Node.eq_of_frame ?_ ?_)
        · rw [frames, Node.frame_mapChildren]
        · rw [children, Node.children_mapChildren]

/-- Nothing else becomes of some trees. -/
theorem eq_map (exchanged : Exchanged exchange before after) :
    after = before.map (Node.exchanged exchange) :=
  eq_map_of_places exchanged.count fun _ node stands => place_eq node exchanged stands

end Exchanged

namespace Walker

variable {walker : Walker σ}

/-- Whether a walker has a visitor for a node. -/
def asks (walker : Walker σ) (node : Node) : Bool := (walker.visitor? node.kind).isSome

/-- Only nodes with a visitor are asked about. -/
theorem foldl_shown (nodes : List Node) (state : σ) :
    nodes.foldl walker.shown state = (nodes.filter walker.asks).foldl walker.shown state := by
  induction nodes generalizing state with
  | nil => rfl
  | cons node nodes inductionHypothesis =>
    rw [List.foldl_cons, inductionHypothesis]
    cases known : walker.visitor? node.kind with
    | none => simp [asks, shown, known]
    | some visitor => simp [asks, known]

/-- A walk that exchanges nodes gives the trees in which just the reached nodes that are to be
    exchanged were exchanged. Its visitors are called for the reached nodes of their kinds, each
    once and in their order, and for no others: not for what is below an exchanged node, and not
    for a replacement or what stands in one. -/
theorem walk_exchanged (exchanges : walker.Exchanges exchange) (nodes : List Node) (state : σ) :
    (∀ after, Exchanged exchange nodes after ↔ after = (walker.walk nodes state).1) ∧
      ∃ calls : List (List Nat × Node), (calls.map Prod.fst).Pairwise (· < ·) ∧
        (∀ path node, (path, node) ∈ calls ↔
          Reached exchange nodes path node ∧ walker.asks node = true) ∧
        (walker.walk nodes state).2 = (calls.map Prod.snd).foldl walker.shown state := by
  rw [exchanges.walk_eq]
  constructor
  · intro after
    constructor
    · exact Exchanged.eq_map
    · rintro rfl
      exact exchanged_map exchange nodes
  · have below : nodes.flatMap (Node.reached exchange) =
        (placed (Node.visits exchange) nodes).map Prod.snd := placed_nodes.symm
    refine ⟨(placed (Node.visits exchange) nodes).filter fun call => walker.asks call.2,
      ?increasing, ?called, ?final⟩
    case increasing =>
      exact (placed_visits_increasing nodes).sublist (List.filter_sublist.map Prod.fst)
    case called =>
      intro path node
      rw [List.mem_filter, mem_placed_visits]
    case final =>
      rw [foldl_shown, below, List.filter_map]
      rfl

/-- A variable takes the place of each call here, and it is not asked about, nor is what stood in
    the call. Only the last variable is counted. -/
theorem walk_exchanged_call :
    let walker : Walker Nat :=
      (empty.on .call fun _ => pure (.replace (.reference "g"))).on .reference
        fun _ => modifyGet fun count => (.keep, count + 1)
    let exchange : Node → Option Node := fun node =>
      if node.kind = .call then some (.reference "g") else none
    let nodes := [Node.binary [.add] [.call (.reference "f") [.reference "a"], .reference "b"]]
    walker.Exchanges exchange ∧
      walker.walk nodes 0 = ([.binary [.add] [.reference "g", .reference "b"]], 1) ∧
      (∀ after, Exchanged exchange nodes after ↔ after = (walker.walk nodes 0).1) ∧
        ∃ calls : List (List Nat × Node), (calls.map Prod.fst).Pairwise (· < ·) ∧
          (∀ path node, (path, node) ∈ calls ↔
            Reached exchange nodes path node ∧ walker.asks node = true) ∧
          (walker.walk nodes 0).2 = (calls.map Prod.snd).foldl walker.shown 0 := by
  intro walker exchange nodes
  have exchanges : walker.Exchanges exchange := {
    verdict := by
      intro node visitor state known
      cases node with
      | call | reference =>
        obtain rfl := Option.some.inj known
        rfl
      | _ => exact nomatch known
    others := by
      intro node absent
      cases node with
      | call => exact nomatch absent
      | _ => rfl }
  exact ⟨exchanges, rfl, walk_exchanged exchanges nodes 0⟩

end Walker

end ShaderSource
