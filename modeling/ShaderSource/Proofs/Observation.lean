import ShaderSource.Proofs.RoundTrip
import ShaderSource.Proofs.Tree.Exchange
import ShaderSource.Proofs.Tree.Numbers
import ShaderSource.Proofs.Tree.Occurrences

/-!
# Looking at the nodes of programs

A walker whose visitors keep everything only looks. It leaves all trees as they
are and is shown every node of the kinds that it has visitors for, each once and
in the order in which the nodes occur in the JSON form of the trees. The numbers
that it is shown in a program are the numbers of the source text.
-/

namespace ShaderSource

variable {σ : Type}

/-- Nothing becomes of a node when no node is exchanged. -/
theorem Node.exchanged_none (node : Node) : node.exchanged (fun _ => none) = node := by
  induction node using Node.childrenInduction with
  | step node inductionHypothesis =>
    rw [exchanged_of_none rfl, mapChildren_eq_self inductionHypothesis]

/-- To exchange nothing changes nothing. -/
theorem Node.map_exchanged_none (nodes : List Node) :
    nodes.map (Node.exchanged fun _ => none) = nodes := by
  rw [List.map_congr_left fun node _ => node.exchanged_none, List.map_id']

namespace Walker

variable {walker : Walker σ}

/-- The visitors of a walker keep every node, whatever the state. -/
def ReadOnly (walker : Walker σ) : Prop :=
  ∀ node visitor state, walker.visitor? node.kind = some visitor →
    (visitor node state).1 = .keep

/-- The nodes that occur in some trees and that a walker has visitors for. -/
def watched (walker : Walker σ) (nodes : List Node) : List Node :=
  (occurrences nodes).filter walker.asks

/-- Visitors that only read exchange nothing. -/
theorem ReadOnly.exchanges (readOnly : walker.ReadOnly) : walker.Exchanges fun _ => none where
  verdict := readOnly
  others _ _ := rfl

/-- A walk that only looks leaves the trees as they are, and its visitors are called for each
    occurrence of a node of their kinds, in order. -/
theorem ReadOnly.walk_eq (readOnly : walker.ReadOnly) (nodes : List Node) (state : σ) :
    walker.walk nodes state = (nodes, (walker.watched nodes).foldl walker.shown state) := by
  rw [readOnly.exchanges.walk_eq, Node.map_exchanged_none, foldl_shown, watched, occurrences_eq]
  rfl

/-- A walker with visitors for numbers is shown all numbers. -/
theorem watched_numbers (floats : (walker.visitor? .float).isSome = true)
    (ints : (walker.visitor? .int).isSome = true) (nodes : List Node) :
    (walker.watched nodes).filterMap Node.number? = (occurrences nodes).filterMap Node.number? := by
  rw [watched, List.filterMap_filter]
  apply List.filterMap_congr
  intro node _
  cases node with
  | float => exact if_pos floats
  | int => exact if_pos ints
  | _ => exact ite_self _

/-- A walk that only looks leaves all trees as they are, made by a parser or not, and its visitors
    are called for each occurrence of a node of their kinds, in order. The numbers that occur in
    a program are those of its source text. -/
theorem walk_readOnly (readOnly : walker.ReadOnly) :
    (∀ nodes state,
      walker.walk nodes state = (nodes, (walker.watched nodes).foldl walker.shown state)) ∧
    ∀ {source nodes}, compile source = .ok nodes → (walker.visitor? .float).isSome = true →
      (walker.visitor? .int).isSome = true →
        ∃ tokens, (tokenize source).tokens? = .ok tokens ∧
          (walker.watched nodes).filterMap Node.number? =
            (tokens.map Token.piece).filter Piece.isNumber := by
  refine ⟨readOnly.walk_eq, fun {source nodes} accepted floats ints => ?_⟩
  obtain ⟨tokens, complete, shown, shaped, _⟩ := exists_of_compile accepted
  refine ⟨tokens, complete, ?_⟩
  rw [watched_numbers floats ints, occurrences_eq, List.filterMap_flatMap, shown, programPieces,
    List.filter_flatMap]
  exact List.flatMap_congr fun node member => ((shaped node member).numbers true).symm

/-- The visitors write down the numbers of this program. -/
theorem walk_readOnly_numbers :
    let log : Visitor (List Node) := fun node => modifyGet fun seen => (.keep, seen ++ [node])
    let walker := (empty.on .float log).on .int log
    walker.ReadOnly ∧
      (∀ nodes state,
        walker.walk nodes state = (nodes, (walker.watched nodes).foldl walker.shown state)) ∧
      ∃ nodes, compile "float x = .5 * f(2, a + 1.0);" = .ok nodes ∧
        (walker.walk nodes []).2 = [.float ".5", .int "2", .float "1.0"] ∧
        ∃ tokens, (tokenize "float x = .5 * f(2, a + 1.0);").tokens? = .ok tokens ∧
          (walker.watched nodes).filterMap Node.number? =
            (tokens.map Token.piece).filter Piece.isNumber := by
  intro log walker
  have readOnly : walker.ReadOnly := by
    intro node visitor state known
    cases node with
    | float | int =>
      obtain rfl := Option.some.inj known
      rfl
    | _ => exact nomatch known
  have accepted : compile "float x = .5 * f(2, a + 1.0);" = .ok [.declaration none "float" "x"
      (some (.binary [.mul] [.float ".5", .call (.reference "f")
        [.int "2", .binary [.add] [.reference "a", .float "1.0"]]]))] := by
    decide +kernel
  obtain ⟨looks, counts⟩ := walk_readOnly readOnly
  exact ⟨readOnly, looks, _, accepted, rfl, counts accepted rfl rfl⟩

end Walker

end ShaderSource
