import ShaderSource.Proofs.Table
import ShaderSource.Proofs.Tree.Walk
import ShaderSource.Uniform

/-!
# The uniforms of a program

Uniforms are declared at the top of a program. Registering them puts them into a
table in their order, each in place of an earlier one with its key, and leaves the
program as it is.
-/

namespace ShaderSource

/-- Registering looks only at qualified declarations, and edits none. -/
theorem uniformVisitor_shallow : uniformVisitor.Shallow where
  keeps _ _ _ := rfl
  edits _ _ changed decided := Verdict.noConfusion (show Verdict.keep = .edit changed from decided)

/-- A visit keeps the node and registers it if it is a uniform. -/
theorem uniformVisitor_visit (node : Node) (table : UniformTable) :
    uniformVisitor.visit node table = (node, registerUniform node table) := by
  cases node <;> rfl

/-- Registering the uniforms of a program registers those of its top nodes in turn. -/
theorem registerUniforms_eq {nodes : List Node} (shaped : ShapedProgram nodes)
    (table : UniformTable) :
    registerUniforms nodes table =
      (nodes, nodes.foldl (fun table node => registerUniform node table) table) := by
  have walked : uniformVisitor.walker.walk nodes table =
      (nodes.map id, nodes.foldl (fun table node => registerUniform node table) table) := by
    rw [uniformVisitor_shallow.walk_eq shaped, mapM_visits uniformVisitor_visit nodes table]
    rfl
  rwa [List.map_id] at walked

/-- The uniforms that a program declares, in the order of the source: each with its key. -/
def declaredUniforms (nodes : List Node) : List (String × UniformBinding) :=
  nodes.filterMap declaredUniform?

/-- Registering the top nodes in turn extends the table by the uniforms that they declare. -/
theorem foldl_registerUniform (nodes : List Node) (table : UniformTable) :
    nodes.foldl (fun table node => registerUniform node table) table =
      table.extend (declaredUniforms nodes) := by
  induction nodes generalizing table with
  | nil => rfl
  | cons node nodes inductionHypothesis =>
    rw [List.foldl_cons, inductionHypothesis, declaredUniforms, declaredUniforms]
    cases declared : declaredUniform? node with
    | none => rw [List.filterMap_cons_none declared, registerUniform, declared]
    | some uniform =>
      rw [List.filterMap_cons_some declared, registerUniform, declared]
      rfl

/-- Registering the uniforms of a program extends a table by them. -/
theorem registerUniforms_table {nodes : List Node} (shaped : ShapedProgram nodes)
    (table : UniformTable) :
    (registerUniforms nodes table).2 = table.extend (declaredUniforms nodes) := by
  rw [registerUniforms_eq shaped, foldl_registerUniform]

/-- Uniforms that are registered in an empty table first are added to a table as if they were
    registered in it. -/
theorem extend_registerUniforms {nodes : List Node} (shaped : ShapedProgram nodes)
    (table : UniformTable) :
    table.extend (registerUniforms nodes .empty).2.entries = (registerUniforms nodes table).2 := by
  rw [registerUniforms_table shaped, registerUniforms_table shaped, Table.extend_collected]
  rfl

end ShaderSource
