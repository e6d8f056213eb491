import ShaderSource.Proofs.Tree.Lossless
import ShaderSource.Proofs.Tree.Reach

/-!
# The nodes in the JSON form of trees

The values in a JSON document have an order, each before those in it. The nodes
that occur in the JSON form of some trees are the values in it that are forms of
nodes. They are the subtrees of these trees in the order of a walk, for no part
of a form is the form of a node without standing for one.
-/

namespace ShaderSource

namespace Json

mutual

/-- A value and all values in it, each before those in it, in the order in which they are
    written. -/
def values : Json → List Json
  | array items => array items :: itemValues items
  | object members => object members :: memberValues members
  | json => [json]

/-- The values in some items. -/
def itemValues : List Json → List Json
  | [] => []
  | item :: items => item.values ++ itemValues items

/-- The values in some members. -/
def memberValues : List (String × Json) → List Json
  | [] => []
  | (_, value) :: members => value.values ++ memberValues members

end

/-- The nodes whose forms occur in a value, in the order of their forms. -/
def nodes (json : Json) : List Node := json.values.filterMap Node.ofJson?

end Json

/-- The nodes that occur in some trees, in the order of the JSON form of the trees. -/
def occurrences (nodes : List Node) : List Node := (Json.array (Node.listToJson nodes)).nodes

namespace Json

@[simp] theorem nodes_null : null.nodes = [] := by simp [nodes, values, Node.ofJson?]

@[simp] theorem nodes_bool (value : Bool) : (bool value).nodes = [] := by
  simp [nodes, values, Node.ofJson?]

@[simp] theorem nodes_string (text : String) : (string text).nodes = [] := by
  simp [nodes, values, Node.ofJson?]

/-- An array is no node; its nodes are those of its items. -/
@[simp] theorem nodes_array (items : List Json) : (array items).nodes = items.flatMap nodes := by
  have inside : (itemValues items).filterMap Node.ofJson? = items.flatMap nodes := by
    induction items with
    | nil => rfl
    | cons item items inductionHypothesis =>
      rw [itemValues, List.filterMap_append, inductionHypothesis]
      rfl
  simp [nodes, values, Node.ofJson?, inside]

/-- The nodes in the members of an object are those in one value after the other. -/
theorem filterMap_memberValues (members : List (String × Json)) :
    (memberValues members).filterMap Node.ofJson? =
      members.flatMap fun entry => entry.2.nodes := by
  induction members with
  | nil => rfl
  | cons entry members inductionHypothesis =>
    rw [memberValues, List.filterMap_append, inductionHypothesis]
    rfl

/-- An object with several members is not the form of a node. -/
@[simp] theorem nodes_object (entry other : String × Json) (members : List (String × Json)) :
    (object (entry :: other :: members)).nodes =
      (entry :: other :: members).flatMap fun entry => entry.2.nodes := by
  rw [← filterMap_memberValues]
  simp [nodes, values, Node.ofJson?]

/-- An object with one member is not the form of a node, unless the member is named for a kind of
    nodes. -/
theorem nodes_single {name : String} (unknown : NodeKind.ofName? name = none) (part : Json) :
    (object [(name, part)]).nodes = part.nodes := by
  have undecoded : Node.ofJson? (object [(name, part)]) = none := by
    rw [Node.ofJson?.eq_def]
    simp only [unknown, Option.bind_eq_bind, Option.bind_none]
  rw [nodes, values, List.filterMap_cons, undecoded, filterMap_memberValues]
  simp

/-- An object of a value alone is no node. -/
@[simp] theorem nodes_value (part : Json) : (object [("value", part)]).nodes = part.nodes :=
  nodes_single (by decide) part

/-- An object of a name alone is no node. -/
@[simp] theorem nodes_name (part : Json) : (object [("name", part)]).nodes = part.nodes :=
  nodes_single (by decide) part

/-- An object of a text alone is no node. -/
@[simp] theorem nodes_text (part : Json) : (object [("text", part)]).nodes = part.nodes :=
  nodes_single (by decide) part

end Json

/-- The nodes in the form of a node are its subtrees. -/
def Node.Occurs (node : Node) : Prop := node.toJson.nodes = node.subtrees

namespace Node.Occurs

/-- The fact that a node occurs, as an equation to rewrite with. -/
theorem eq {node : Node} (occurs : node.Occurs) : node.toJson.nodes = node.subtrees := occurs

section Parts

/-- The nodes in a list are the subtrees of one after the other. -/
theorem list {nodes : List Node} (each : ∀ node ∈ nodes, node.Occurs) :
    (Node.listToJson nodes).flatMap Json.nodes = nodes.flatMap subtrees := by
  induction nodes with
  | nil => rfl
  | cons node nodes inductionHypothesis =>
    rw [List.forall_mem_cons] at each
    rw [listToJson, List.flatMap_cons, each.1, inductionHypothesis each.2, List.flatMap_cons]

/-- A node that is missing has no subtrees. -/
theorem option {value : Option Node} (each : ∀ node, value = some node → node.Occurs) :
    (optionToJson value).nodes = value.toList.flatMap subtrees := by
  cases value with
  | none => exact Json.nodes_null
  | some node =>
    rw [optionToJson, each node rfl]
    simp

/-- A body that is missing has no subtrees. -/
theorem optionList {last : Option (List Node)}
    (each : ∀ nodes, last = some nodes → ∀ node ∈ nodes, node.Occurs) :
    (optionListToJson last).nodes = (last.getD []).flatMap subtrees := by
  cases last with
  | none => exact Json.nodes_null
  | some nodes => rw [optionListToJson, Json.nodes_array, list (each nodes rfl), Option.getD_some]

/-- The nodes in a branch are the subtrees of its condition and of its body. -/
theorem branch {branch : Branch}
    (each : branch.condition.Occurs ∧ ∀ node ∈ branch.body, node.Occurs) :
    branch.toJson.nodes = branch.children.flatMap subtrees := by
  cases branch with
  | mk condition body =>
    obtain ⟨guard, guarded⟩ := each
    rw [Branch.condition, Occurs] at guard
    rw [Branch.body] at guarded
    simp [Branch.toJson, Branch.children, guard, list guarded]

/-- The nodes in some branches are those of one after the other. -/
theorem branchList {branches : List Branch}
    (each : ∀ branch ∈ branches, branch.condition.Occurs ∧ ∀ node ∈ branch.body, node.Occurs) :
    (Branch.listToJson branches).flatMap Json.nodes =
      (branches.flatMap Branch.children).flatMap subtrees := by
  induction branches with
  | nil => rfl
  | cons first branches inductionHypothesis =>
    rw [List.forall_mem_cons] at each
    rw [Branch.listToJson, List.flatMap_cons, branch each.1, inductionHypothesis each.2,
      List.flatMap_cons, List.flatMap_append]

/-- No node is in a qualifier. -/
theorem qualifier (qualifier : Option Qualifier) : (Qualifier.toJson qualifier).nodes = [] := by
  cases qualifier <;> simp [Qualifier.toJson]

/-- No node is in a list of texts. -/
theorem texts {α : Type} (text : α → String) (items : List α) :
    (items.map fun item => Json.string (text item)).flatMap Json.nodes = [] := by
  simp [List.flatMap_map]

/-- No node is in the parameters of a function. -/
theorem params (params : List Param) : (params.map Param.toJson).flatMap Json.nodes = [] := by
  simp [List.flatMap_map, Param.toJson]

end Parts

/-- A node occurs in its form before what occurs in the form of its parts. -/
theorem of_parts {node : Node} {kind : NodeKind} {parts : Json}
    (form : node.toJson = taggedForm kind parts)
    (inside : parts.nodes = node.children.flatMap subtrees) : node.Occurs := by
  have decoded : Node.ofJson? (.object [(kind.name, parts)]) = some node :=
    node.decoded (form ▸ .same _)
  rw [Occurs, form, taggedForm, Json.nodes, Json.values, List.filterMap_cons, decoded,
    Json.filterMap_memberValues, subtrees_eq, ← inside]
  simp

end Node.Occurs

/-- The nodes in the form of a node are its subtrees. -/
theorem Node.occurs (node : Node) : node.Occurs := by
  induction node using Node.induction with
  | precision | chunk | float | int | reference => exact .of_parts rfl (by simp [children])
  | empty | breaking => exact .of_parts rfl Json.nodes_null
  | declaration _ _ _ _ each =>
    exact .of_parts rfl (by simp [children, Occurs.qualifier, Occurs.option each])
  | assignment _ _ _ inner | expression _ inner | parenthesized _ inner | unary _ _ inner
  | property _ _ inner | crement _ _ _ inner =>
    exact .of_parts rfl (by simp [children, inner.eq])
  | propertyAssignment _ _ _ owner assigned =>
    exact .of_parts rfl (by simp [children, owner.eq, assigned.eq])
  | function _ _ _ _ performed =>
    exact .of_parts rfl (by simp [children, Occurs.params, Occurs.list performed])
  | conditional _ _ _ _ guard body others last =>
    exact .of_parts rfl (by simp [children, guard.eq, Occurs.list body, Occurs.branchList others,
      Occurs.optionList last])
  | loop _ _ _ _ first second third body =>
    exact .of_parts rfl (by simp [children, first.eq, second.eq, third.eq, Occurs.list body])
  | returning _ each => exact .of_parts rfl (by simp [children, Occurs.option each])
  | call _ _ called given => exact .of_parts rfl (by simp [children, called.eq, Occurs.list given])
  | binary _ _ each =>
    exact .of_parts rfl (by simp [children, Occurs.texts, Occurs.list each])

/-- The nodes that occur in some trees are the subtrees of one after the other. -/
theorem occurrences_eq (nodes : List Node) : occurrences nodes = nodes.flatMap Node.subtrees := by
  rw [occurrences, Json.nodes_array, Node.Occurs.list fun node _ => node.occurs]

end ShaderSource
