import ShaderSource.Json.Basic
import ShaderSource.Tree.Node

/-!
# The JSON form of trees

A node is an object with one member, named for the kind of the node, which
holds its parts by name. A part that is absent is null, and so are the parts
of a node that has none.

Reading finds the parts by name, in any order; an absent part and a missing
one are the same.
-/

namespace ShaderSource

/-- The form of a node of some kind with the form of its parts. -/
def taggedForm (kind : NodeKind) (parts : Json) : Json := .object [(kind.name, parts)]

def Param.toJson (param : Param) : Json :=
  .object [("ty", .string param.ty), ("name", .string param.name)]

def Qualifier.toJson (qualifier : Option Qualifier) : Json :=
  match qualifier with
  | some word => .string word.name
  | none => .null

mutual

/-- The form of a node. -/
def Node.toJson : Node → Json
  | .precision level ty =>
    taggedForm .precision (.object [("precision", .string level), ("ty", .string ty)])
  | .declaration qualifier ty name value =>
    taggedForm .declaration (.object
      [("qualifier", Qualifier.toJson qualifier), ("ty", .string ty), ("name", .string name),
       ("value", Node.optionToJson value)])
  | .assignment name op value =>
    taggedForm .assignment (.object
      [("name", .string name), ("op", .string op.name), ("value", value.toJson)])
  | .propertyAssignment target op value =>
    taggedForm .propertyAssignment (.object
      [("target", target.toJson), ("op", .string op.name), ("value", value.toJson)])
  | .expression value => taggedForm .expression (.object [("value", value.toJson)])
  | .empty => taggedForm .empty .null
  | .function returnType name params body =>
    taggedForm .function (.object
      [("return_ty", .string returnType), ("name", .string name),
       ("params", .array (params.map Param.toJson)), ("body", .array (Node.listToJson body))])
  | .conditional condition body elseIfs elseBody =>
    taggedForm .conditional (.object
      [("condition", condition.toJson), ("body", .array (Node.listToJson body)),
       ("else_ifs", .array (Branch.listToJson elseIfs)),
       ("else_body", Node.optionListToJson elseBody)])
  | .loop init check increment body =>
    taggedForm .loop (.object
      [("init", init.toJson), ("check", check.toJson), ("increment", increment.toJson),
       ("body", .array (Node.listToJson body))])
  | .returning value => taggedForm .returning (.object [("value", Node.optionToJson value)])
  | .breaking => taggedForm .breaking .null
  | .float text => taggedForm .float (.object [("value", .string text)])
  | .int text => taggedForm .int (.object [("value", .string text)])
  | .reference name => taggedForm .reference (.object [("name", .string name)])
  | .parenthesized value => taggedForm .parenthesized (.object [("value", value.toJson)])
  | .unary op value =>
    taggedForm .unary (.object [("op", .string op.name), ("value", value.toJson)])
  | .call callee args =>
    taggedForm .call (.object
      [("callee", callee.toJson), ("args", .array (Node.listToJson args))])
  | .binary ops operands =>
    taggedForm .binary (.object
      [("ops", .array (ops.map fun op => .string op.name)),
       ("operands", .array (Node.listToJson operands))])
  | .property value property =>
    taggedForm .property (.object [("value", value.toJson), ("property", .string property)])
  | .crement op trailing value =>
    taggedForm .crement (.object
      [("op", .string op.name), ("postfix", .bool trailing), ("value", value.toJson)])
  | .chunk text => taggedForm .chunk (.object [("text", .string text)])

/-- The forms of some nodes. -/
def Node.listToJson : List Node → List Json
  | [] => []
  | node :: nodes => node.toJson :: Node.listToJson nodes

/-- The form of an optional node. -/
def Node.optionToJson : Option Node → Json
  | none => .null
  | some node => node.toJson

/-- The form of an optional list of nodes. -/
def Node.optionListToJson : Option (List Node) → Json
  | none => .null
  | some nodes => .array (Node.listToJson nodes)

/-- The form of a branch. -/
def Branch.toJson : Branch → Json
  | .mk condition body =>
    .object [("condition", condition.toJson), ("body", .array (Node.listToJson body))]

/-- The forms of some branches. -/
def Branch.listToJson : List Branch → List Json
  | [] => []
  | branch :: branches => branch.toJson :: Branch.listToJson branches

end

def Param.ofJson? (json : Json) : Option Param := do
  let ty ← json.stringMember? "ty"
  let name ← json.stringMember? "name"
  some ⟨ty, name⟩

def Qualifier.ofJson? : Option Json → Option (Option Qualifier)
  | none | some .null => some none
  | some (.string text) => (ofName? text).map some
  | some _ => none

def BinaryOp.ofJson? (json : Json) : Option BinaryOp := json.string?.bind ofName?

mutual

/-- The node with a form. -/
def Node.ofJson? : Json → Option Node
  | .object [(tag, parts)] => do
    match ← NodeKind.ofName? tag with
    | .precision =>
      let level ← parts.stringMember? "precision"
      let ty ← parts.stringMember? "ty"
      some (.precision level ty)
    | .declaration =>
      let qualifier ← Qualifier.ofJson? ((parts.member? "qualifier").map Subtype.val)
      let ty ← parts.stringMember? "ty"
      let name ← parts.stringMember? "name"
      let value ← Node.optionOfJson? parts "value"
      some (.declaration qualifier ty name value)
    | .assignment =>
      let name ← parts.stringMember? "name"
      let op ← (← parts.stringMember? "op") |> AssignOp.ofName?
      let ⟨value, _⟩ ← parts.member? "value"
      some (.assignment name op (← Node.ofJson? value))
    | .propertyAssignment =>
      let ⟨target, _⟩ ← parts.member? "target"
      let op ← (← parts.stringMember? "op") |> AssignOp.ofName?
      let ⟨value, _⟩ ← parts.member? "value"
      some (.propertyAssignment (← Node.ofJson? target) op (← Node.ofJson? value))
    | .expression =>
      let ⟨value, _⟩ ← parts.member? "value"
      some (.expression (← Node.ofJson? value))
    | .empty =>
      match parts with
      | .null => some .empty
      | _ => none
    | .function =>
      let returnType ← parts.stringMember? "return_ty"
      let name ← parts.stringMember? "name"
      let ⟨params, _⟩ ← parts.member? "params"
      let ⟨body, _⟩ ← parts.member? "body"
      some (.function returnType name (← (← params.array?).mapM Param.ofJson?)
        (← Node.arrayOfJson? body))
    | .conditional =>
      let ⟨condition, _⟩ ← parts.member? "condition"
      let ⟨body, _⟩ ← parts.member? "body"
      let ⟨elseIfs, _⟩ ← parts.member? "else_ifs"
      let elseBody ← Node.optionArrayOfJson? parts "else_body"
      some (.conditional (← Node.ofJson? condition) (← Node.arrayOfJson? body)
        (← Branch.arrayOfJson? elseIfs) elseBody)
    | .loop =>
      let ⟨init, _⟩ ← parts.member? "init"
      let ⟨check, _⟩ ← parts.member? "check"
      let ⟨increment, _⟩ ← parts.member? "increment"
      let ⟨body, _⟩ ← parts.member? "body"
      some (.loop (← Node.ofJson? init) (← Node.ofJson? check) (← Node.ofJson? increment)
        (← Node.arrayOfJson? body))
    | .returning => (Node.optionOfJson? parts "value").map .returning
    | .breaking =>
      match parts with
      | .null => some .breaking
      | _ => none
    | .float => (parts.stringMember? "value").map .float
    | .int => (parts.stringMember? "value").map .int
    | .reference => (parts.stringMember? "name").map .reference
    | .parenthesized =>
      let ⟨value, _⟩ ← parts.member? "value"
      some (.parenthesized (← Node.ofJson? value))
    | .unary =>
      let op ← (← parts.stringMember? "op") |> UnaryOp.ofName?
      let ⟨value, _⟩ ← parts.member? "value"
      some (.unary op (← Node.ofJson? value))
    | .call =>
      let ⟨callee, _⟩ ← parts.member? "callee"
      let ⟨args, _⟩ ← parts.member? "args"
      some (.call (← Node.ofJson? callee) (← Node.arrayOfJson? args))
    | .binary =>
      let ⟨ops, _⟩ ← parts.member? "ops"
      let ⟨operands, _⟩ ← parts.member? "operands"
      some (.binary (← (← ops.array?).mapM BinaryOp.ofJson?) (← Node.arrayOfJson? operands))
    | .property =>
      let ⟨value, _⟩ ← parts.member? "value"
      let property ← parts.stringMember? "property"
      some (.property (← Node.ofJson? value) property)
    | .crement =>
      let op ← (← parts.stringMember? "op") |> CrementOp.ofName?
      let trailing ← parts.boolMember? "postfix"
      let ⟨value, _⟩ ← parts.member? "value"
      some (.crement op trailing (← Node.ofJson? value))
    | .chunk => (parts.stringMember? "text").map .chunk
  | _ => none
termination_by json => sizeOf json
decreasing_by all_goals (simp only [Json.object.sizeOf_spec, List.cons.sizeOf_spec, Prod.mk.sizeOf_spec]; omega)

/-- The nodes with the forms of a list. -/
def Node.listOfJson? : List Json → Option (List Node)
  | [] => some []
  | item :: items => do
    let node ← Node.ofJson? item
    let nodes ← Node.listOfJson? items
    some (node :: nodes)
termination_by items => sizeOf items

/-- The nodes of an array of forms. -/
def Node.arrayOfJson? : Json → Option (List Node)
  | .array items => Node.listOfJson? items
  | _ => none
termination_by json => sizeOf json

/-- The node of a part that may be absent. -/
def Node.optionOfJson? (parts : Json) (name : String) : Option (Option Node) :=
  match parts.member? name with
  | none => some none
  | some ⟨.null, _⟩ => some none
  | some ⟨form, _⟩ => (Node.ofJson? form).map some
termination_by sizeOf parts

/-- The nodes of a part that may be absent. -/
def Node.optionArrayOfJson? (parts : Json) (name : String) : Option (Option (List Node)) :=
  match parts.member? name with
  | none => some none
  | some ⟨.null, _⟩ => some none
  | some ⟨form, _⟩ => (Node.arrayOfJson? form).map some
termination_by sizeOf parts

/-- The branch with a form. -/
def Branch.ofJson? (json : Json) : Option Branch := do
  let ⟨condition, _⟩ ← json.member? "condition"
  let ⟨body, _⟩ ← json.member? "body"
  some (.mk (← Node.ofJson? condition) (← Node.arrayOfJson? body))
termination_by sizeOf json

/-- The branches with the forms of a list. -/
def Branch.listOfJson? : List Json → Option (List Branch)
  | [] => some []
  | item :: items => do
    let branch ← Branch.ofJson? item
    let branches ← Branch.listOfJson? items
    some (branch :: branches)
termination_by items => sizeOf items

/-- The branches of an array of forms. -/
def Branch.arrayOfJson? : Json → Option (List Branch)
  | .array items => Branch.listOfJson? items
  | _ => none
termination_by json => sizeOf json

end

end ShaderSource
