import ShaderSource.Tree.Node

/-!
# Equality of trees

Two trees are compared part by part. The comparison answers `true` exactly for
equal trees, which decides equality.
-/

namespace ShaderSource

mutual

/-- Whether two nodes are the same. -/
def Node.same : Node → Node → Bool
  | .precision level ty, right =>
    match right with
    | .precision level' ty' => level == level' && ty == ty'
    | _ => false
  | .declaration qualifier ty name value, right =>
    match right with
    | .declaration qualifier' ty' name' value' =>
      qualifier == qualifier' && ty == ty' && name == name' && Node.sameOption value value'
    | _ => false
  | .assignment name op value, right =>
    match right with
    | .assignment name' op' value' => name == name' && op == op' && value.same value'
    | _ => false
  | .propertyAssignment target op value, right =>
    match right with
    | .propertyAssignment target' op' value' =>
      target.same target' && op == op' && value.same value'
    | _ => false
  | .expression value, right =>
    match right with
    | .expression value' => value.same value'
    | _ => false
  | .empty, right =>
    match right with
    | .empty => true
    | _ => false
  | .function returnType name params body, right =>
    match right with
    | .function returnType' name' params' body' =>
      returnType == returnType' && name == name' && params == params' &&
        Node.sameList body body'
    | _ => false
  | .conditional condition body elseIfs elseBody, right =>
    match right with
    | .conditional condition' body' elseIfs' elseBody' =>
      condition.same condition' && Node.sameList body body' &&
        Branch.sameList elseIfs elseIfs' && Node.sameOptionList elseBody elseBody'
    | _ => false
  | .loop init check increment body, right =>
    match right with
    | .loop init' check' increment' body' =>
      init.same init' && check.same check' && increment.same increment' &&
        Node.sameList body body'
    | _ => false
  | .returning value, right =>
    match right with
    | .returning value' => Node.sameOption value value'
    | _ => false
  | .breaking, right =>
    match right with
    | .breaking => true
    | _ => false
  | .float text, right =>
    match right with
    | .float text' => text == text'
    | _ => false
  | .int text, right =>
    match right with
    | .int text' => text == text'
    | _ => false
  | .reference name, right =>
    match right with
    | .reference name' => name == name'
    | _ => false
  | .parenthesized value, right =>
    match right with
    | .parenthesized value' => value.same value'
    | _ => false
  | .unary op value, right =>
    match right with
    | .unary op' value' => op == op' && value.same value'
    | _ => false
  | .call callee args, right =>
    match right with
    | .call callee' args' => callee.same callee' && Node.sameList args args'
    | _ => false
  | .binary ops operands, right =>
    match right with
    | .binary ops' operands' => ops == ops' && Node.sameList operands operands'
    | _ => false
  | .property value property, right =>
    match right with
    | .property value' property' => value.same value' && property == property'
    | _ => false
  | .crement op trailing value, right =>
    match right with
    | .crement op' trailing' value' =>
      op == op' && trailing == trailing' && value.same value'
    | _ => false
  | .chunk text, right =>
    match right with
    | .chunk text' => text == text'
    | _ => false

/-- Whether two lists hold the same nodes. -/
def Node.sameList : List Node → List Node → Bool
  | [], [] => true
  | node :: nodes, node' :: nodes' => node.same node' && Node.sameList nodes nodes'
  | _, _ => false

/-- Whether two optional nodes are the same. -/
def Node.sameOption : Option Node → Option Node → Bool
  | none, none => true
  | some node, some node' => node.same node'
  | _, _ => false

/-- Whether two optional lists hold the same nodes. -/
def Node.sameOptionList : Option (List Node) → Option (List Node) → Bool
  | none, none => true
  | some nodes, some nodes' => Node.sameList nodes nodes'
  | _, _ => false

/-- Whether two branches are the same. -/
def Branch.same : Branch → Branch → Bool
  | .mk condition body, .mk condition' body' =>
    condition.same condition' && Node.sameList body body'

/-- Whether two lists hold the same branches. -/
def Branch.sameList : List Branch → List Branch → Bool
  | [], [] => true
  | branch :: branches, branch' :: branches' =>
    branch.same branch' && Branch.sameList branches branches'
  | _, _ => false

end

mutual

/-- The comparison of nodes decides their equality, kind by kind. -/
theorem Node.same_iff : ∀ left right : Node, left.same right = true ↔ left = right
  | .precision .., right => by cases right <;> simp [Node.same]
  | .declaration _ _ _ value, right => by
    cases right <;> simp [Node.same, Node.sameOption_iff value, and_assoc]
  | .assignment _ _ value, right => by
    cases right <;> simp [Node.same, Node.same_iff value, and_assoc]
  | .propertyAssignment target _ value, right => by
    cases right <;> simp [Node.same, Node.same_iff target, Node.same_iff value, and_assoc]
  | .expression value, right => by cases right <;> simp [Node.same, Node.same_iff value]
  | .empty, right => by cases right <;> simp [Node.same]
  | .function _ _ _ body, right => by
    cases right <;> simp [Node.same, Node.sameList_iff body, and_assoc]
  | .conditional condition body elseIfs elseBody, right => by
    cases right <;>
      simp [Node.same, Node.same_iff condition, Node.sameList_iff body,
        Branch.sameList_iff elseIfs, Node.sameOptionList_iff elseBody, and_assoc]
  | .loop init check increment body, right => by
    cases right <;>
      simp [Node.same, Node.same_iff init, Node.same_iff check, Node.same_iff increment,
        Node.sameList_iff body, and_assoc]
  | .returning value, right => by cases right <;> simp [Node.same, Node.sameOption_iff value]
  | .breaking, right => by cases right <;> simp [Node.same]
  | .float .., right => by cases right <;> simp [Node.same]
  | .int .., right => by cases right <;> simp [Node.same]
  | .reference .., right => by cases right <;> simp [Node.same]
  | .parenthesized value, right => by cases right <;> simp [Node.same, Node.same_iff value]
  | .unary _ value, right => by cases right <;> simp [Node.same, Node.same_iff value]
  | .call callee args, right => by
    cases right <;> simp [Node.same, Node.same_iff callee, Node.sameList_iff args]
  | .binary _ operands, right => by
    cases right <;> simp [Node.same, Node.sameList_iff operands]
  | .property value _, right => by cases right <;> simp [Node.same, Node.same_iff value]
  | .crement _ _ value, right => by
    cases right <;> simp [Node.same, Node.same_iff value, and_assoc]
  | .chunk .., right => by cases right <;> simp [Node.same]

/-- The comparison of lists of nodes decides their equality. -/
theorem Node.sameList_iff : ∀ left right : List Node,
    Node.sameList left right = true ↔ left = right
  | [], right => by cases right <;> simp [Node.sameList]
  | node :: nodes, right => by
    cases right <;> simp [Node.sameList, Node.same_iff node, Node.sameList_iff nodes]

/-- The comparison of nodes that may be missing decides their equality. -/
theorem Node.sameOption_iff : ∀ left right : Option Node,
    Node.sameOption left right = true ↔ left = right
  | none, right => by cases right <;> simp [Node.sameOption]
  | some node, right => by cases right <;> simp [Node.sameOption, Node.same_iff node]

/-- The comparison of bodies that may be missing decides their equality. -/
theorem Node.sameOptionList_iff : ∀ left right : Option (List Node),
    Node.sameOptionList left right = true ↔ left = right
  | none, right => by cases right <;> simp [Node.sameOptionList]
  | some nodes, right => by cases right <;> simp [Node.sameOptionList, Node.sameList_iff nodes]

/-- The comparison of branches decides their equality. -/
theorem Branch.same_iff : ∀ left right : Branch, left.same right = true ↔ left = right
  | .mk condition body, right => by
    cases right
    simp [Branch.same, Node.same_iff condition, Node.sameList_iff body]

/-- The comparison of lists of branches decides their equality. -/
theorem Branch.sameList_iff : ∀ left right : List Branch,
    Branch.sameList left right = true ↔ left = right
  | [], right => by cases right <;> simp [Branch.sameList]
  | branch :: branches, right => by
    cases right <;>
      simp [Branch.sameList, Branch.same_iff branch, Branch.sameList_iff branches]

end

instance : DecidableEq Node := fun left right =>
  decidable_of_iff _ (Node.same_iff left right)

instance : DecidableEq Branch := fun left right =>
  decidable_of_iff _ (Branch.same_iff left right)

end ShaderSource
