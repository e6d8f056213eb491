import Mathlib.Data.List.Basic
import ShaderSource.Proofs.Tree.Descent
import ShaderSource.Proofs.Tree.Frame

/-!
# Walking to the declarations of a program

A visitor of declarations that leaves those without a qualifier alone changes
nothing below the top of a program, since qualified declarations stand only at
the top. So a walk through a program visits its top nodes one after the other.
-/

namespace ShaderSource

variable {σ : Type}

/-- A visitor looks only at qualified declarations, and the value that it gives to one is
    finished source text. -/
structure Visitor.Shallow (visitor : Visitor σ) : Prop where
  keeps : ∀ ty name value, visitor (.declaration none ty name value) = pure .keep
  edits : ∀ node state changed, (visitor node state).1 = .edit changed →
    ∃ qualifier ty name text, changed = .declaration qualifier ty name (some (.chunk text))

/-- What becomes of a node at the top of a program when declarations are visited. -/
def Visitor.visit (visitor : Visitor σ) (node : Node) : StateM σ Node :=
  match node with
  | .declaration .. => do
    match ← visitor node with
    | .keep => return node
    | .edit changed => return changed
    | .replace replacement => return replacement
  | _ => return node

/-- Visits that change each node and the state without looking further, one after the other. -/
theorem mapM_visits {visit : Node → StateM σ Node} {change : Node → Node}
    {update : σ → Node → σ}
    (each : ∀ node state, visit node state = (change node, update state node))
    (nodes : List Node) (state : σ) :
    nodes.mapM visit state = (nodes.map change, nodes.foldl update state) := by
  induction nodes generalizing state with
  | nil => rfl
  | cons node nodes inductionHypothesis =>
    rw [List.mapM_cons]
    simp only [bind, StateT.bind, each, inductionHypothesis]
    rfl

/-- The walker that visits declarations. -/
def Visitor.walker (visitor : Visitor σ) : Walker σ := Walker.empty.on .declaration visitor

/-- A declaration below the top of a program has no qualifier. -/
theorem Shaped.unqualified {category : Category} {node : Node} (shaped : Shaped category node)
    (inner : category ≠ .top) {qualifier : Option Qualifier} {ty name : String}
    {initial : Option Node} (declared : node = .declaration qualifier ty name initial) :
    qualifier = none := by
  induction shaped with
  | declaration =>
    obtain ⟨rfl, _⟩ := Node.declaration.inj declared
    rfl
  | ofPrimary _ found | ofOperand _ found | ofClause _ found => exact found (by decide) declared
  | ofStatement | precision | qualified | function => exact absurd rfl inner
  | _ => exact Node.noConfusion declared

namespace Visitor.Shallow

variable {visitor : Visitor σ} {edited : Node → StateM σ Node}

/-- A node below the top stays as it is, if its children do. -/
theorem judge_of_descend (shallow : visitor.Shallow) {category : Category} {node : Node}
    (shaped : Shaped category node) (inner : category ≠ .top)
    (descended : visitor.walker.descend edited node = pure node) :
    visitor.walker.judge edited node (visitor.walker.descend edited node) = pure node := by
  rw [descended]
  cases node with
  | declaration qualifier ty name value =>
    obtain rfl := shaped.unqualified inner rfl
    have asked : visitor.walker.visitor? .declaration = some visitor := rfl
    simp only [Walker.judge, Node.kind, asked, shallow.keeps, pure_bind]
  | _ => rfl

/-- Nothing below a node changes. The induction is on the node: what stands in it is never a
    qualified declaration. -/
theorem descend_eq (shallow : visitor.Shallow) {category : Category} {node : Node}
    (shaped : Shaped category node) : visitor.walker.descend edited node = pure node := by
  induction node using Node.childrenInduction generalizing category with
  | step node inductionHypothesis =>
    have each : ∀ child ∈ node.children,
        visitor.walker.Makes edited id (fun state _ => state) child := by
      intro child member state
      obtain ⟨inner, below, shaped⟩ := shaped.child child member
      have descended := inductionHypothesis child member shaped
      rw [Walker.visit, shallow.judge_of_descend shaped below descended]
      rfl
    funext state
    rw [Walker.descend_eq each, Node.mapChildren_id, List.foldl_fixed]
    rfl

/-- A node at the top is judged by a visit. -/
theorem judge_top (shallow : visitor.Shallow) {node : Node} (shaped : Shaped .top node) :
    visitor.walker.judge (visitor.walker.descendEdited Walker.maxEdits) node
        (visitor.walker.descend (visitor.walker.descendEdited Walker.maxEdits) node) =
      visitor.visit node := by
  rw [shallow.descend_eq shaped]
  cases node with
  | declaration qualifier ty name value =>
    funext state
    have asked : visitor.walker.visitor? .declaration = some visitor := rfl
    simp only [Walker.judge, Node.kind, asked, Visitor.visit, bind, StateT.bind]
    cases decided : visitor (.declaration qualifier ty name value) state with
    | mk verdict after =>
      cases verdict with
      | keep => rfl
      | replace => rfl
      | edit changed =>
        obtain ⟨qualifier, ty, name, text, rfl⟩ :=
          shallow.edits _ state changed (by rw [decided])
        rfl
  | _ => rfl

/-- A walk through a program visits its top nodes in turn. -/
theorem walk_eq (shallow : visitor.Shallow) {nodes : List Node} (shaped : ShapedProgram nodes) :
    visitor.walker.walk nodes = nodes.mapM visitor.visit := by
  unfold Walker.walk
  induction nodes with
  | nil => rfl
  | cons node nodes inductionHypothesis =>
    have others := inductionHypothesis fun other member => shaped other (by simp [member])
    rw [Walker.descendList, shallow.judge_top (shaped node (by simp)), List.mapM_cons, others]

end Visitor.Shallow

end ShaderSource
