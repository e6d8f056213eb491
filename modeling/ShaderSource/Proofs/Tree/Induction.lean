import ShaderSource.Proofs.Tree.Shape

/-!
# Induction on trees

A property of all nodes is proved by one case for each kind of node, in which
the children have the property: values, optional values, the nodes of lists, and
the conditions and bodies of branches.
-/

namespace ShaderSource

section Induction

variable {motive : Node → Prop}
  (precision : ∀ level ty, motive (.precision level ty))
  (declaration : ∀ qualifier ty name value, (∀ node, value = some node → motive node) →
    motive (.declaration qualifier ty name value))
  (assignment : ∀ name op value, motive value → motive (.assignment name op value))
  (propertyAssignment : ∀ target op value, motive target → motive value →
    motive (.propertyAssignment target op value))
  (expression : ∀ value, motive value → motive (.expression value))
  (empty : motive .empty)
  (function : ∀ returnType name params body, (∀ node ∈ body, motive node) →
    motive (.function returnType name params body))
  (conditional : ∀ condition body elseIfs elseBody, motive condition →
    (∀ node ∈ body, motive node) →
    (∀ branch ∈ elseIfs, motive (Branch.condition branch) ∧
      ∀ node ∈ Branch.body branch, motive node) →
    (∀ nodes, elseBody = some nodes → ∀ node ∈ nodes, motive node) →
    motive (.conditional condition body elseIfs elseBody))
  (loop : ∀ init check increment body, motive init → motive check → motive increment →
    (∀ node ∈ body, motive node) → motive (.loop init check increment body))
  (returning : ∀ value, (∀ node, value = some node → motive node) → motive (.returning value))
  (breaking : motive .breaking)
  (float : ∀ text, motive (.float text))
  (int : ∀ text, motive (.int text))
  (reference : ∀ name, motive (.reference name))
  (parenthesized : ∀ value, motive value → motive (.parenthesized value))
  (unary : ∀ op value, motive value → motive (.unary op value))
  (call : ∀ callee args, motive callee → (∀ node ∈ args, motive node) →
    motive (.call callee args))
  (binary : ∀ ops operands, (∀ node ∈ operands, motive node) → motive (.binary ops operands))
  (property : ∀ value name, motive value → motive (.property value name))
  (crement : ∀ op trailing value, motive value → motive (.crement op trailing value))
  (chunk : ∀ text, motive (.chunk text))

include precision declaration assignment propertyAssignment expression empty function conditional
  loop returning breaking float int reference parenthesized unary call binary property crement chunk

/-- A property holds of every node if it holds of each kind of node with children that have it. -/
theorem Node.induction (node : Node) : motive node := by
  let guarded (branch : Branch) : Prop :=
    motive branch.condition ∧ ∀ node ∈ branch.body, motive node
  refine @Node.rec motive guarded (fun value => ∀ node, value = some node → motive node)
    (fun nodes => ∀ node ∈ nodes, motive node) (fun branches => ∀ branch ∈ branches, guarded branch)
    (fun body => ∀ nodes, body = some nodes → ∀ node ∈ nodes, motive node)
    precision declaration assignment propertyAssignment expression empty function conditional loop
    returning breaking float int reference parenthesized unary call binary property crement chunk
    ?branch ?noValue ?someValue ?noNodes ?moreNodes ?noBranches ?moreBranches ?noBody ?someBody node
  case branch => exact fun _ _ guard body => ⟨guard, body⟩
  case noValue | noBody => nofun
  case someValue | someBody =>
    rintro _ each _ ⟨⟩
    exact each
  case noNodes | noBranches => nofun
  case moreNodes | moreBranches =>
    intro _ _ first others
    exact List.forall_mem_cons.mpr ⟨first, others⟩

end Induction

end ShaderSource
