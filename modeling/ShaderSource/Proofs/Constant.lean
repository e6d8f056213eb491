import ShaderSource.Constant
import ShaderSource.Proofs.Tree.Walk

/-!
# The constants of a program

Constants are declared at the top of a program, so giving them their values is
a change of each top node by itself. The first node that has no literal is the
failure of the whole program.
-/

namespace ShaderSource

/-- A node with the value that the host has for it, or the node itself if there is none. -/
def Node.valued (data : DataTable) (node : Node) : Node :=
  match substituteConstant node data with
  | .ok (some changed) => changed
  | _ => node

/-- The failure at a node whose constant has no literal. -/
def constantError? (data : DataTable) (node : Node) : Option ConstantError :=
  match substituteConstant node data with
  | .error cause => some ⟨declaredName node, cause⟩
  | .ok _ => none

section Substitution

variable {node : Node} {data : DataTable}

/-- Only a constant without a value is given one, and it is the literal of its type. -/
theorem substituteConstant_some {changed : Node}
    (substituted : substituteConstant node data = .ok (some changed)) :
    ∃ ty name text, node = .declaration (some .const) ty name none ∧
      changed = .declaration (some .const) ty name (some (.chunk text)) ∧
        constantLiteral ty name data = .ok (some text) := by
  unfold substituteConstant at substituted
  split at substituted
  case h_1 ty name =>
    cases literal : constantLiteral ty name data with
    | error => simp [literal, Except.map] at substituted
    | ok given =>
      cases given with
      | none => simp [literal, Except.map] at substituted
      | some text =>
        refine ⟨ty, name, text, rfl, ?_, literal⟩
        simpa [literal, Except.map, eq_comm] using substituted
  case h_2 => simp at substituted

/-- A literal is written for a value of the host, with a type that the language names. -/
theorem constantLiteral_some {ty name text : String}
    (literal : constantLiteral ty name data = .ok (some text)) :
    ∃ value known, LiteralType.ofName ty = .ok known ∧ renderLiteral value known = .ok text := by
  unfold constantLiteral at literal
  split at literal
  case h_1 => simp at literal
  case h_2 value _ =>
    split at literal
    case h_1 => simp at literal
    case h_2 known named =>
      refine ⟨value, known, named, ?_⟩
      cases rendered : renderLiteral value known with
      | error => simp [rendered, Except.map] at literal
      | ok found => simpa [rendered, Except.map] using literal

/-- A node that the host has no value for stays. -/
theorem Node.valued_of_none (kept : substituteConstant node data = .ok none) :
    node.valued data = node := by
  rw [Node.valued, kept]

/-- A node that the host has a value for gets it. -/
theorem Node.valued_of_some {changed : Node}
    (substituted : substituteConstant node data = .ok (some changed)) :
    node.valued data = changed := by
  rw [Node.valued, substituted]

/-- Without a failure there is a result. -/
theorem constantError?_eq_none :
    constantError? data node = none ↔ ∃ result, substituteConstant node data = .ok result := by
  unfold constantError?
  cases substituteConstant node data with
  | error => simp
  | ok => simp

end Substitution

/-- Failures are kept in the order in which they are found. -/
theorem foldl_or {α : Type} (error? : Node → Option α) (nodes : List Node) (first : Option α) :
    nodes.foldl (fun failure node => failure.or (error? node)) first =
      first.or (nodes.findSome? error?) := by
  induction nodes generalizing first with
  | nil => simp
  | cons node nodes inductionHypothesis =>
    rw [List.foldl_cons, inductionHypothesis, List.findSome?_cons]
    cases first with
    | some => rfl
    | none => cases error? node <;> rfl

/-- The verdict about a node that may be a constant without a value. -/
def constantVerdict (data : DataTable) (node : Node) : Verdict :=
  match substituteConstant node data with
  | .ok (some changed) => .edit changed
  | _ => .keep

/-- What edits only constants, to give them their values, is shallow. -/
theorem Visitor.Shallow.of_verdict {σ : Type} {visitor : Visitor σ} (data : DataTable)
    (keeps : ∀ ty name value, visitor (.declaration none ty name value) = pure .keep)
    (verdict : ∀ node state, (visitor node state).1 = constantVerdict data node) :
    visitor.Shallow where
  keeps := keeps
  edits node state changed decided := by
    rw [verdict, constantVerdict] at decided
    split at decided
    case h_1 found substituted =>
      obtain rfl := Verdict.edit.inj decided
      obtain ⟨ty, name, text, _, shown, _⟩ := substituteConstant_some substituted
      exact ⟨some .const, ty, name, text, shown⟩
    case h_2 => exact Verdict.noConfusion decided

/-- Completing looks only at qualified declarations, and gives them finished source text. -/
theorem constantVisitor_shallow (data : DataTable) : (constantVisitor data).Shallow := by
  refine .of_verdict data (fun _ _ _ => rfl) fun node state => ?_
  unfold constantVisitor constantVerdict
  cases substituteConstant node data with
  | error => rfl
  | ok given => cases given <;> rfl

/-- A visit gives a node its value and keeps the first failure. -/
theorem constantVisitor_visit (data : DataTable) (node : Node)
    (failure : Option ConstantError) :
    (constantVisitor data).visit node failure =
      (node.valued data, failure.or (constantError? data node)) := by
  cases node with
  | declaration qualifier ty name value =>
    simp only [Visitor.visit, constantVisitor, Node.valued, constantError?]
    cases substituteConstant (.declaration qualifier ty name value) data with
    | error => rfl
    | ok given => cases given <;> cases failure <;> rfl
  | _ => cases failure <;> rfl

/-- Giving values to the constants of a program changes each top node by itself, unless one
    of them has no literal. -/
theorem substituteConstants_eq {nodes : List Node} (shaped : ShapedProgram nodes)
    (data : DataTable) :
    substituteConstants nodes data =
      match nodes.findSome? (constantError? data) with
      | some failure => .error failure
      | none => .ok (nodes.map (Node.valued data)) := by
  have walked : (constantVisitor data).walker.walk nodes none =
      (nodes.map (Node.valued data), nodes.findSome? (constantError? data)) := by
    rw [(constantVisitor_shallow data).walk_eq shaped,
      mapM_visits (constantVisitor_visit data) nodes none, foldl_or, Option.none_or]
  unfold substituteConstants
  rw [show (Walker.empty.on .declaration (constantVisitor data)).walk nodes none = _ from walked]
  cases nodes.findSome? (constantError? data) <;> rfl

/-- A program whose constants get no value stays as it is. -/
theorem substituteConstants_settled {nodes : List Node} (shaped : ShapedProgram nodes)
    {data : DataTable} (settled : ∀ node ∈ nodes, substituteConstant node data = .ok none) :
    substituteConstants nodes data = .ok nodes := by
  have failures : nodes.findSome? (constantError? data) = none := by
    rw [List.findSome?_eq_none_iff]
    intro node member
    exact constantError?_eq_none.mpr ⟨none, settled node member⟩
  have same : nodes.map (Node.valued data) = nodes := by
    have each : ∀ node ∈ nodes, node.valued data = id node := fun node member =>
      Node.valued_of_none (settled node member)
    rw [List.map_congr_left each, List.map_id]
  rw [substituteConstants_eq shaped, failures, same]

/-- A host without values gives none. -/
theorem substituteConstant_empty (node : Node) : substituteConstant node .empty = .ok none := by
  unfold substituteConstant
  split <;> rfl

/-- If completing succeeds, each node of the program has its value and none has failed. -/
theorem substituteConstants_ok {nodes substituted : List Node} (shaped : ShapedProgram nodes)
    {data : DataTable} (result : substituteConstants nodes data = .ok substituted) :
    substituted = nodes.map (Node.valued data) ∧
      ∀ node ∈ nodes, ∃ result, substituteConstant node data = .ok result := by
  rw [substituteConstants_eq shaped] at result
  split at result
  case h_1 => simp at result
  case h_2 none =>
    refine ⟨(Except.ok.inj result).symm, fun node member => ?_⟩
    exact constantError?_eq_none.mp (List.findSome?_eq_none_iff.mp none node member)

end ShaderSource
