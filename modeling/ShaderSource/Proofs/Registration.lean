import ShaderSource.Proofs.Observation
import ShaderSource.Proofs.Tree.Order
import ShaderSource.Proofs.Uniform

/-!
# Uniforms anywhere in trees

Trees that no parser makes may declare uniforms anywhere: in bodies, in clauses of
loops and in the values of other declarations. Registering them finds each one.
It only looks at the trees, and under a key it leaves the last uniform with this
key, in the order of the paths, or what was there before if there is none.
-/

namespace ShaderSource

/-- Registering uniforms changes no node. -/
theorem uniformVisitor_readOnly : uniformVisitor.walker.ReadOnly := by
  intro node visitor table known
  cases node with
  | declaration =>
    obtain rfl := Option.some.inj known
    rfl
  | _ => exact absurd known.symm (Option.some_ne_none visitor)

/-- Nodes of other kinds declare no uniform, so it makes no difference that they are not shown
    to the visitor. -/
theorem uniformVisitor_shown (table : UniformTable) (node : Node) :
    uniformVisitor.walker.shown table node = registerUniform node table := by
  cases node <;> rfl

/-- Registering the uniforms of some trees leaves the trees as they are and extends the table by
    the uniforms of all nodes in them. -/
theorem registerUniforms_subtrees (nodes : List Node) (table : UniformTable) :
    registerUniforms nodes table =
      (nodes, table.extend (declaredUniforms (nodes.flatMap Node.subtrees))) := by
  have shown : uniformVisitor.walker.shown =
      fun (table : UniformTable) (node : Node) => registerUniform node table :=
    funext fun table => funext (uniformVisitor_shown table)
  have walked := uniformVisitor_readOnly.exchanges.walk_eq nodes table
  rw [Node.map_exchanged_none, shown] at walked
  exact walked.trans (congrArg (nodes, ·) (foldl_registerUniform _ table))

/-- The uniform that a node declares, if it has a key. -/
def uniformAt? (key : String) (node : Node) : Option UniformBinding :=
  (declaredUniform? node).bind fun entry => if entry.1 = key then some entry.2 else none

section Key

variable {key : String} {node : Node}

/-- A node binds a key exactly if it declares a uniform whose name has the key. -/
theorem uniformAt?_eq_some {binding : UniformBinding} :
    uniformAt? key node = some binding ↔
      ∃ value, node = .declaration (some .uniform) binding.ty binding.sourceName value ∧
        uniformKey binding.sourceName = key := by
  constructor
  · intro found
    obtain ⟨⟨known, declared⟩, given, chosen⟩ := Option.bind_eq_some_iff.mp found
    unfold declaredUniform? at given
    split at given
    case h_1 ty name value =>
      obtain ⟨rfl, rfl⟩ := Prod.mk.inj (Option.some.inj given)
      by_cases same : uniformKey name = key
      · rw [if_pos same] at chosen
        obtain rfl := Option.some.inj chosen
        exact ⟨value, rfl, same⟩
      · simp [same] at chosen
    case h_2 => simp at given
  · rintro ⟨value, rfl, same⟩
    simp [uniformAt?, declaredUniform?, same]

/-- A node binds no key exactly if it declares no uniform whose name has the key. -/
theorem uniformAt?_eq_none :
    uniformAt? key node = none ↔
      ∀ ty name value, node = .declaration (some .uniform) ty name value →
        uniformKey name ≠ key := by
  rw [Option.eq_none_iff_forall_ne_some]
  constructor
  · intro missed ty name value declared same
    exact missed ⟨name, ty⟩ (uniformAt?_eq_some.mpr ⟨value, declared, same⟩)
  · intro others binding found
    obtain ⟨value, declared, same⟩ := uniformAt?_eq_some.mp found
    exact others _ _ _ declared same

end Key

/-- After registering the uniforms of some trees a key has the last of those with this key, or
    what it had before. -/
theorem find?_registerUniforms (nodes : List Node) (table : UniformTable) (key : String) :
    (registerUniforms nodes table).2.find? key =
      ((nodes.flatMap Node.subtrees).reverse.findSome? (uniformAt? key)).or (table.find? key) := by
  rw [registerUniforms_subtrees, Table.find?_extend, declaredUniforms, ← List.filterMap_reverse,
    ← List.head?_filterMap, List.filterMap_filterMap, List.head?_filterMap]
  rfl

/-- A node in some trees is the last one, in the order of the paths, that declares a uniform with
    a key. -/
def LastUniform (nodes : List Node) (key : String) (binding : UniformBinding) : Prop :=
  ∃ path value,
    Stands nodes path (.declaration (some .uniform) binding.ty binding.sourceName value) ∧
      uniformKey binding.sourceName = key ∧
      ∀ later ty name value, path < later →
        Stands nodes later (.declaration (some .uniform) ty name value) → uniformKey name ≠ key

/-- No node in some trees declares a uniform with a key. -/
def NoUniform (nodes : List Node) (key : String) : Prop :=
  ∀ path ty name value, Stands nodes path (.declaration (some .uniform) ty name value) →
    uniformKey name ≠ key

/-- Looked up from the end, a key has the binding of the last uniform that has it. -/
theorem findSome?_uniformAt?_eq_some {nodes : List Node} {key : String} {binding : UniformBinding} :
    (nodes.flatMap Node.subtrees).reverse.findSome? (uniformAt? key) = some binding ↔
      LastUniform nodes key binding := by
  rw [findSome?_subtrees_reverse]
  constructor
  · rintro ⟨path, node, stands, found, missed⟩
    obtain ⟨value, rfl, same⟩ := uniformAt?_eq_some.mp found
    refine ⟨path, value, stands, same, fun later ty name value less stands => ?_⟩
    exact uniformAt?_eq_none.mp (missed later _ less stands) ty name value rfl
  · rintro ⟨path, value, stands, same, others⟩
    refine ⟨path, _, stands, uniformAt?_eq_some.mpr ⟨value, rfl, same⟩, ?_⟩
    intro later other less stands
    refine uniformAt?_eq_none.mpr fun ty name value declared => ?_
    subst declared
    exact others later ty name value less stands

/-- Looked up from the end, a key has no binding if no uniform has it. -/
theorem findSome?_uniformAt?_eq_none {nodes : List Node} {key : String} :
    (nodes.flatMap Node.subtrees).reverse.findSome? (uniformAt? key) = none ↔
      NoUniform nodes key := by
  have mirrored : (nodes.flatMap Node.subtrees).reverse.findSome? (uniformAt? key) = none ↔
      (nodes.flatMap Node.subtrees).findSome? (uniformAt? key) = none := by
    simp only [List.findSome?_eq_none_iff, List.mem_reverse]
  rw [mirrored, findSome?_subtrees_eq_none]
  constructor
  · intro missed path ty name value stands
    exact uniformAt?_eq_none.mp (missed path _ stands) ty name value rfl
  · intro others path node stands
    refine uniformAt?_eq_none.mpr fun ty name value declared => ?_
    subst declared
    exact others path ty name value stands

/-- Registering the uniforms of any trees, made by a parser or not, leaves the trees as they are.
    Each key has the last uniform with this key that they declare, or what it had before if they
    declare none. -/
theorem registerUniforms_exact (nodes : List Node) (table : UniformTable) :
    (registerUniforms nodes table).1 = nodes ∧
      ∀ key binding, (registerUniforms nodes table).2.find? key = some binding ↔
        LastUniform nodes key binding ∨
          (NoUniform nodes key ∧ table.find? key = some binding) := by
  constructor
  · rw [registerUniforms_subtrees]
  · intro key binding
    rw [find?_registerUniforms, Option.or_eq_some_iff, findSome?_uniformAt?_eq_some,
      findSome?_uniformAt?_eq_none]

end ShaderSource
