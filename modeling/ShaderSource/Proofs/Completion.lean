import ShaderSource.Proofs.Constant
import ShaderSource.Proofs.Tree.Filling
import ShaderSource.Proofs.Tree.Order

/-!
# Open constants anywhere in trees

A constant is open if it has no value and the host has one for it. Trees that no
parser makes may declare constants anywhere: in bodies, in clauses of loops and in
the values of other declarations. Giving values to the constants of some trees
completes all that are open and changes nothing else. It fails at the first open
one, in the order of the paths, whose value has no literal.
-/

namespace ShaderSource

/-- A node declares a constant without a value, and the host has one for it. -/
structure OpenConstant (data : DataTable) (node : Node) (ty name : String) (value : HostValue) :
    Prop where
  declared : node = .declaration (some .const) ty name none
  supplied : data.find? name = some value

/-- The literal of a value with the type that a declaration names. -/
def literalOf (ty : String) (value : HostValue) : Except LiteralError String := do
  let known ← LiteralType.ofName ty
  renderLiteral value known

/-- What is put in place of a node: an open constant with the literal of its value. -/
def completed? (data : DataTable) (node : Node) : Option Node :=
  match substituteConstant node data with
  | .ok given => given
  | .error _ => none

section Node

variable {data : DataTable} {node : Node} {ty name : String} {value : HostValue}

/-- An open constant becomes one with a literal, or fails as the literal does. -/
theorem OpenConstant.substituteConstant (opened : OpenConstant data node ty name value) :
    substituteConstant node data = (literalOf ty value).map fun text =>
      some (.declaration (some .const) ty name (some (.chunk text))) := by
  obtain ⟨rfl, supplied⟩ := opened
  simp only [ShaderSource.substituteConstant, constantLiteral, supplied, literalOf]
  cases LiteralType.ofName ty with
  | error error => rfl
  | ok known =>
    simp only [bind, Except.bind]
    cases renderLiteral value known <;> rfl

/-- All other nodes stay as they are. -/
theorem substituteConstant_of_not_open
    (settled : ∀ ty name value, ¬ OpenConstant data node ty name value) :
    substituteConstant node data = .ok none := by
  unfold ShaderSource.substituteConstant
  split
  case h_1 ty name =>
    cases supplied : data.find? name with
    | none => simp [constantLiteral, supplied, Except.map]
    | some value => exact absurd ⟨rfl, supplied⟩ (settled ty name value)
  case h_2 => rfl

/-- A node is an open constant, or completing leaves it. -/
theorem open_or_settled (data : DataTable) (node : Node) :
    (∃ ty name value, OpenConstant data node ty name value) ∨
      substituteConstant node data = .ok none := by
  by_cases opened : ∃ ty name value, OpenConstant data node ty name value
  · exact .inl opened
  · simp only [not_exists] at opened
    exact .inr (substituteConstant_of_not_open opened)

/-- An open constant whose value has a literal is completed with it. -/
theorem OpenConstant.completed? (opened : OpenConstant data node ty name value) {text : String}
    (written : literalOf ty value = .ok text) :
    completed? data node = some (.declaration (some .const) ty name (some (.chunk text))) := by
  rw [ShaderSource.completed?, opened.substituteConstant, written]
  rfl

/-- A node that is no open constant is not completed. -/
theorem completed?_of_not_open
    (settled : ∀ ty name value, ¬ OpenConstant data node ty name value) :
    completed? data node = none := by
  rw [ShaderSource.completed?, substituteConstant_of_not_open settled]

/-- Only open constants are completed. -/
theorem completed?_eq_some {result : Node} (found : completed? data node = some result) :
    ∃ ty name value text, OpenConstant data node ty name value ∧
      literalOf ty value = .ok text ∧
        result = .declaration (some .const) ty name (some (.chunk text)) := by
  rcases open_or_settled data node with ⟨ty, name, value, opened⟩ | settled
  · rw [ShaderSource.completed?, opened.substituteConstant] at found
    cases written : literalOf ty value with
    | error error => simp [written, Except.map] at found
    | ok text =>
      simp only [written, Except.map, Option.some.injEq] at found
      exact ⟨ty, name, value, text, opened, written, found.symm⟩
  · rw [ShaderSource.completed?, settled] at found
    simp at found

/-- A failure is that of the literal of an open constant. -/
theorem constantError?_eq_some {failure : ConstantError} :
    constantError? data node = some failure ↔
      ∃ ty value, OpenConstant data node ty failure.declaration value ∧
        literalOf ty value = .error failure.cause := by
  constructor
  · intro failed
    rcases open_or_settled data node with ⟨ty, name, value, opened⟩ | settled
    · rw [constantError?, opened.substituteConstant] at failed
      cases written : literalOf ty value with
      | error error =>
        simp only [written, Except.map, Option.some.injEq] at failed
        subst failed
        obtain rfl := opened.declared
        exact ⟨ty, value, opened, written⟩
      | ok text => simp [written, Except.map] at failed
    · rw [constantError?, settled] at failed
      simp at failed
  · rintro ⟨ty, value, opened, written⟩
    rw [constantError?, opened.substituteConstant, written, opened.declared]
    rfl

/-- There is no failure at a node if it is not open, or if its value has a literal. -/
theorem constantError?_eq_none_iff :
    constantError? data node = none ↔
      ∀ ty name value, OpenConstant data node ty name value →
        ∃ text, literalOf ty value = .ok text := by
  constructor
  · intro passed ty name value opened
    cases written : literalOf ty value with
    | ok text => exact ⟨text, rfl⟩
    | error cause =>
      have failed : constantError? data node = some ⟨name, cause⟩ :=
        constantError?_eq_some.mpr ⟨ty, value, opened, written⟩
      rw [passed] at failed
      simp at failed
  · intro literals
    cases failed : constantError? data node with
    | none => rfl
    | some failure =>
      obtain ⟨ty, value, opened, refused⟩ := constantError?_eq_some.mp failed
      obtain ⟨text, written⟩ := literals ty _ value opened
      rw [refused] at written
      simp at written

end Node

section Walk

variable {data : DataTable}

/-- The walker that gives constants their values fills them in. -/
theorem constantVisitor_fills (data : DataTable) :
    (constantVisitor data).walker.Fills (completed? data) where
  verdict node visitor state known := by
    cases node with
    | declaration qualifier ty name value =>
      obtain rfl := Option.some.inj known
      simp only [constantVisitor, completed?]
      cases substituteConstant (.declaration qualifier ty name value) data with
      | error error => rfl
      | ok given => cases given <;> rfl
    | _ => exact absurd known.symm (Option.some_ne_none visitor)
  others node unasked := by
    cases node with
    | declaration => exact absurd unasked (Option.some_ne_none _)
    | _ => rfl
  hollow found := by
    obtain ⟨ty, name, value, text, opened, _, _⟩ := completed?_eq_some found
    rw [opened.declared]
    rfl
  settled found child member := by
    obtain ⟨ty, name, value, text, _, _, rfl⟩ := completed?_eq_some found
    obtain rfl := List.mem_singleton.mp member
    exact ⟨rfl, rfl⟩

/-- The state keeps the first failure. Nodes of other kinds have none, so it makes no difference
    that they are not shown to the visitor. -/
theorem constantVisitor_shown (failure : Option ConstantError) (node : Node) :
    (constantVisitor data).walker.shown failure node = failure.or (constantError? data node) := by
  cases node with
  | declaration qualifier ty name value =>
    have asked : (constantVisitor data).walker.visitor? .declaration = some (constantVisitor data) :=
      rfl
    simp only [Walker.shown, Node.kind, asked, constantVisitor, constantError?]
    cases substituteConstant (.declaration qualifier ty name value) data with
    | error error => rfl
    | ok given => cases given <;> cases failure <;> rfl
  | _ => cases failure <;> rfl

/-- Giving values to the constants of any trees completes them, unless one of the nodes in the
    trees fails. -/
theorem substituteConstants_subtrees (nodes : List Node) (data : DataTable) :
    substituteConstants nodes data =
      match (nodes.flatMap Node.subtrees).findSome? (constantError? data) with
      | some failure => .error failure
      | none => .ok (nodes.map (Node.exchanged (completed? data))) := by
  have shown : (constantVisitor data).walker.shown =
      fun (failure : Option ConstantError) node => failure.or (constantError? data node) :=
    funext fun failure => funext (constantVisitor_shown failure)
  have walked := (constantVisitor_fills data).walk_eq nodes none
  rw [shown, foldl_or, Option.none_or] at walked
  unfold substituteConstants
  rw [show (Walker.empty.on .declaration (constantVisitor data)).walk nodes none = _ from walked]
  cases (nodes.flatMap Node.subtrees).findSome? (constantError? data) <;> rfl

end Walk

/-- Some trees are others with their open constants completed: each open constant has the literal
    of its value where it stood, and every other node has kept its frame. -/
structure Completed (data : DataTable) (before after : List Node) : Prop where
  count : after.length = before.length
  filled : ∀ {path node ty name value text}, Stands before path node →
    OpenConstant data node ty name value → literalOf ty value = .ok text →
      Stands after path (.declaration (some .const) ty name (some (.chunk text)))
  kept : ∀ {path node}, Stands before path node →
    (∀ ty name value, ¬ OpenConstant data node ty name value) →
      ∃ same, Stands after path same ∧ same.frame = node.frame

section Trees

variable {data : DataTable} {nodes : List Node}

/-- All open constants in some trees have literals. -/
def AllLiteral (data : DataTable) (nodes : List Node) : Prop :=
  ∀ path node ty name value, Stands nodes path node → OpenConstant data node ty name value →
    ∃ text, literalOf ty value = .ok text

/-- All open constants have literals exactly if no node in the trees fails. -/
theorem allLiteral_iff :
    AllLiteral data nodes ↔
      (nodes.flatMap Node.subtrees).findSome? (constantError? data) = none := by
  rw [findSome?_subtrees_eq_none]
  simp only [constantError?_eq_none_iff]
  constructor
  · intro literals path node stands ty name value
    exact literals path node ty name value stands
  · intro literals path node ty name value stands
    exact literals path node stands ty name value

/-- If all open constants have literals, completing them is exchanging them for those with their
    literals. -/
theorem completed_iff (literals : AllLiteral data nodes) {after : List Node} :
    Completed data nodes after ↔ after = nodes.map (Node.exchanged (completed? data)) := by
  have reaches : ∀ {path node}, Stands nodes path node → Reached (completed? data) nodes path node :=
    (reached_iff_stands (constantVisitor_fills data).hollow).mpr
  constructor
  · intro completed
    refine Exchanged.eq_map ⟨completed.count, ?_, ?_⟩
    · intro path node result reached found
      have stands := (reached_iff_stands (constantVisitor_fills data).hollow).mp reached
      obtain ⟨ty, name, value, text, opened, written, rfl⟩ := completed?_eq_some found
      exact completed.filled stands opened written
    · intro path node reached stays
      have stands := (reached_iff_stands (constantVisitor_fills data).hollow).mp reached
      refine completed.kept stands fun ty name value opened => ?_
      obtain ⟨text, written⟩ := literals path node ty name value stands opened
      rw [opened.completed? written] at stays
      simp at stays
  · rintro rfl
    have exchanged := exchanged_map (completed? data) nodes
    refine ⟨exchanged.count, ?_, ?_⟩
    · intro path node ty name value text stands opened written
      exact exchanged.replaced (reaches stands) (opened.completed? written)
    · intro path node stands settled
      exact exchanged.kept (reaches stands) (completed?_of_not_open settled)

/-- Once the open constants are completed, no node is open any more. -/
theorem settled_of_completed (literals : AllLiteral data nodes) :
    ∀ node ∈ (nodes.map (Node.exchanged (completed? data))).flatMap Node.subtrees,
      substituteConstant node data = .ok none := by
  intro node member
  obtain ⟨changed, among, below⟩ := List.mem_flatMap.mp member
  obtain ⟨top, place, rfl⟩ := List.mem_map.mp among
  refine Node.subtrees_exchanged (fun node => substituteConstant node data = .ok none) ?_ top ?_
    node below
  · intro inner result found deep inside
    obtain ⟨ty, name, value, text, _, _, rfl⟩ := completed?_eq_some found
    have chunk : (Node.chunk text).subtrees = [.chunk text] := Node.subtrees_eq _
    rw [Node.subtrees_eq, Node.children, Option.toList_some, List.flatMap_singleton, chunk] at inside
    rcases List.mem_cons.mp inside with rfl | inside
    · rfl
    · obtain rfl := List.mem_singleton.mp inside
      rfl
  · intro inner inside stays change
    obtain ⟨path, stands⟩ := mem_subtrees_iff.mp (List.mem_flatMap.mpr ⟨top, place, inside⟩)
    refine substituteConstant_of_not_open fun ty name value opened => ?_
    -- A changed node is open only if it has no children, and then it was open before.
    have hollow : inner.children.map change = [] := by
      rw [← Node.children_mapChildren, opened.declared]
      rfl
    have unchanged : inner.mapChildren change = inner :=
      Node.mapChildren_eq_self (by simp [List.map_eq_nil_iff.mp hollow])
    rw [unchanged] at opened
    obtain ⟨text, written⟩ := literals path inner ty name value stands opened
    rw [opened.completed? written] at stays
    simp at stays

/-- Giving values to the constants of some trees succeeds exactly if all open ones have literals,
    and then it completes them. -/
theorem substituteConstants_eq_ok_iff {after : List Node} :
    substituteConstants nodes data = .ok after ↔
      AllLiteral data nodes ∧ nodes.map (Node.exchanged (completed? data)) = after := by
  rw [allLiteral_iff, substituteConstants_subtrees]
  cases (nodes.flatMap Node.subtrees).findSome? (constantError? data) <;> simp

/-- Completing fails at the first node that fails. -/
theorem substituteConstants_eq_error_iff {failure : ConstantError} :
    substituteConstants nodes data = .error failure ↔
      (nodes.flatMap Node.subtrees).findSome? (constantError? data) = some failure := by
  rw [substituteConstants_subtrees]
  cases (nodes.flatMap Node.subtrees).findSome? (constantError? data) <;> simp

/-- Trees without open constants stay as they are. -/
theorem substituteConstants_of_settled
    (settled : ∀ node ∈ nodes.flatMap Node.subtrees, substituteConstant node data = .ok none) :
    substituteConstants nodes data = .ok nodes := by
  have literals : AllLiteral data nodes := by
    rw [allLiteral_iff, List.findSome?_eq_none_iff]
    intro node member
    rw [constantError?, settled node member]
  have same : Completed data nodes nodes := by
    refine ⟨rfl, ?_, fun stands _ => ⟨_, stands, rfl⟩⟩
    intro path node ty name value text stands opened written
    have kept := settled node (mem_subtrees_iff.mpr ⟨path, stands⟩)
    rw [opened.substituteConstant, written] at kept
    simp [Except.map] at kept
  exact substituteConstants_eq_ok_iff.mpr ⟨literals, ((completed_iff literals).mp same).symm⟩

end Trees

/-- Giving values to the constants of any trees, made by a parser or not, has a result exactly if
    every open constant in them has a literal. The result are the trees with their open constants
    completed and nothing else changed, and another run leaves it as it is. Otherwise the failure
    is that of the first open constant without a literal. -/
theorem substituteConstants_exact (nodes : List Node) (data : DataTable) :
    ((∃ after, substituteConstants nodes data = .ok after) ↔
      ∀ path node ty name value, Stands nodes path node → OpenConstant data node ty name value →
        ∃ text, literalOf ty value = .ok text) ∧
    (∀ after, substituteConstants nodes data = .ok after →
      (∀ other, Completed data nodes other ↔ other = after) ∧
        substituteConstants after data = .ok after) ∧
    (∀ failure, substituteConstants nodes data = .error failure ↔
      ∃ path node ty value, Stands nodes path node ∧
        OpenConstant data node ty failure.declaration value ∧
        literalOf ty value = .error failure.cause ∧
        ∀ earlier other ty name value, earlier < path → Stands nodes earlier other →
          OpenConstant data other ty name value → ∃ text, literalOf ty value = .ok text) := by
  refine ⟨?succeeds, ?result, ?fails⟩
  case succeeds =>
    simp only [substituteConstants_eq_ok_iff, exists_and_left, exists_eq', and_true]
    exact Iff.rfl
  case result =>
    intro after succeeded
    obtain ⟨literals, rfl⟩ := substituteConstants_eq_ok_iff.mp succeeded
    constructor
    · intro other
      exact completed_iff literals
    · exact substituteConstants_of_settled (settled_of_completed literals)
  case fails =>
    intro failure
    rw [substituteConstants_eq_error_iff, findSome?_subtrees]
    simp only [constantError?_eq_none_iff]
    constructor
    · rintro ⟨path, node, stands, failed, passed⟩
      obtain ⟨ty, value, opened, refused⟩ := constantError?_eq_some.mp failed
      refine ⟨path, node, ty, value, stands, opened, refused, ?_⟩
      intro earlier other ty name value less stands
      exact passed earlier other less stands ty name value
    · rintro ⟨path, node, ty, value, stands, opened, refused, passed⟩
      refine ⟨path, node, stands, constantError?_eq_some.mpr ⟨ty, value, opened, refused⟩, ?_⟩
      intro earlier other less stands ty name value
      exact passed earlier other ty name value less stands

end ShaderSource
