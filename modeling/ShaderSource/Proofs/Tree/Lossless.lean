import ShaderSource.Proofs.Json.Alike
import ShaderSource.Proofs.Tree.Induction
import ShaderSource.Tree.Form

/-!
# Trees keep everything in their JSON form

Every tree is decoded from its JSON form, whether a parser made it or not, and
from all that differs from this form in the order of members only. So no two
trees have the same form. An absent part is null, and no form of a node or of a
list of nodes is, so an empty list stays apart from an absent one.
-/

namespace ShaderSource

/-- What is alike to the form of a node has the same tag, and holds the parts of the form. -/
theorem exists_of_alike_tagged {json : Json} {kind : NodeKind} {members : List (String × Json)}
    (alike : json.Alike (taggedForm kind (.object members)))
    (distinct : (members.map Prod.fst).Nodup) :
    ∃ parts, json = .object [(kind.name, parts)] ∧
      ∀ entry ∈ members, parts.Holds entry.1 entry.2 := by
  obtain ⟨parts, rfl, inner⟩ := alike.eq_single
  exact ⟨parts, rfl, inner.holds distinct⟩

/-- The items of an array are decoded one by one. -/
theorem mapM_of_alike {α : Type} {encode : α → Json} {decode : Json → Option α}
    (each : ∀ {json value}, json.Alike (encode value) → decode json = some value)
    {items : List Json} {values : List α}
    (alike : List.Forall₂ Json.Alike items (values.map encode)) :
    items.mapM decode = some values := by
  induction values generalizing items with
  | nil =>
    obtain rfl := List.forall₂_nil_right_iff.mp alike
    rfl
  | cons value values inductionHypothesis =>
    obtain ⟨item, items, first, later, rfl⟩ := List.forall₂_cons_right_iff.mp alike
    simp [List.mapM_cons, each first, inductionHypothesis later]

/-- A parameter is decoded, in whatever order its keys stand. -/
theorem Param.ofJson?_of_alike {json : Json} {param : Param} (alike : json.Alike param.toJson) :
    Param.ofJson? json = some param := by
  have held := alike.holds (by simp)
  simp only [List.forall_mem_cons] at held
  obtain ⟨typed, named, -⟩ := held
  simp [Param.ofJson?, typed.stringMember?, named.stringMember?]

/-- An operator is decoded from its name. -/
theorem BinaryOp.ofJson?_of_alike {json : Json} {op : BinaryOp}
    (alike : json.Alike (.string op.name)) : BinaryOp.ofJson? json = some op := by
  simp [BinaryOp.ofJson?, alike.eq_string, Json.string?, BinaryOp.ofName?_name]

/-- A qualifier is decoded from its name, and a missing one from null. -/
theorem Qualifier.ofJson?_of_holds {parts : Json} {name : String} {qualifier : Option Qualifier}
    (holds : parts.Holds name (Qualifier.toJson qualifier)) :
    Qualifier.ofJson? ((parts.member? name).map Subtype.val) = some qualifier := by
  obtain ⟨form, found, alike⟩ := holds
  cases qualifier with
  | none => simp [found, alike.eq_null, Qualifier.ofJson?]
  | some word => simp [found, alike.eq_string, Qualifier.ofJson?, Qualifier.ofName?_name]

/-- A node is decoded from all that is alike to its form. -/
def Node.Decoded (node : Node) : Prop :=
  ∀ ⦃json : Json⦄, json.Alike node.toJson → Node.ofJson? json = some node

namespace Node.Decoded

section Parts

variable {json parts : Json} {partName : String}

/-- A list of nodes is decoded if each of them is. -/
theorem list {nodes : List Node} (each : ∀ node ∈ nodes, node.Decoded) {items : List Json}
    (alike : List.Forall₂ Json.Alike items (Node.listToJson nodes)) :
    Node.listOfJson? items = some nodes := by
  induction nodes generalizing items with
  | nil =>
    obtain rfl := List.forall₂_nil_right_iff.mp alike
    rw [Node.listOfJson?]
  | cons node nodes inductionHypothesis =>
    rw [List.forall_mem_cons] at each
    obtain ⟨item, items, first, later, rfl⟩ := List.forall₂_cons_right_iff.mp alike
    simp only [Node.listOfJson?, each.1 first, inductionHypothesis each.2 later,
      Option.bind_eq_bind, Option.bind_some]

/-- An array of nodes is decoded if each of them is. -/
theorem array {nodes : List Node} (each : ∀ node ∈ nodes, node.Decoded)
    (alike : json.Alike (.array (Node.listToJson nodes))) :
    Node.arrayOfJson? json = some nodes := by
  obtain ⟨items, rfl, same⟩ := alike.eq_array
  rw [Node.arrayOfJson?]
  exact list each same

/-- The form of a node is not null, so null stands for an absent part only. -/
theorem option {value : Option Node} (each : ∀ node, value = some node → node.Decoded)
    (holds : parts.Holds partName (Node.optionToJson value)) :
    Node.optionOfJson? parts partName = some value := by
  obtain ⟨⟨form, _⟩, found, alike⟩ := holds
  rw [Node.optionOfJson?.eq_def, found]
  cases value with
  | none =>
    obtain rfl := alike.eq_null
    rfl
  | some node =>
    have decoded := each node rfl alike
    cases form with
    | null => simp [Node.ofJson?] at decoded
    | _ => simp only [decoded, Option.map_some]

/-- The form of an empty list is not null either. -/
theorem optionArray {value : Option (List Node)}
    (each : ∀ nodes, value = some nodes → ∀ node ∈ nodes, node.Decoded)
    (holds : parts.Holds partName (Node.optionListToJson value)) :
    Node.optionArrayOfJson? parts partName = some value := by
  obtain ⟨⟨form, _⟩, found, alike⟩ := holds
  rw [Node.optionArrayOfJson?.eq_def, found]
  cases value with
  | none =>
    obtain rfl := alike.eq_null
    rfl
  | some nodes =>
    have decoded := array (each nodes rfl) alike
    cases form with
    | null => simp [Node.arrayOfJson?] at decoded
    | _ => simp only [decoded, Option.map_some]

/-- A branch is decoded if its condition and the nodes of its body are. -/
theorem branch {branch : Branch} (guard : branch.condition.Decoded)
    (body : ∀ node ∈ branch.body, node.Decoded) (alike : json.Alike branch.toJson) :
    Branch.ofJson? json = some branch := by
  obtain ⟨condition, statements⟩ := branch
  have held := alike.holds (by simp)
  simp only [List.forall_mem_cons] at held
  obtain ⟨⟨_, found, same⟩, ⟨_, found', same'⟩, -⟩ := held
  rw [Branch.ofJson?.eq_def]
  simp only [Option.bind_eq_bind, Option.bind_some, found, found', guard same, array body same']
  rfl

/-- A list of branches is decoded if the parts of each are. -/
theorem branchList {branches : List Branch}
    (each : ∀ branch ∈ branches, branch.condition.Decoded ∧ ∀ node ∈ branch.body, node.Decoded)
    {items : List Json} (alike : List.Forall₂ Json.Alike items (Branch.listToJson branches)) :
    Branch.listOfJson? items = some branches := by
  induction branches generalizing items with
  | nil =>
    obtain rfl := List.forall₂_nil_right_iff.mp alike
    rw [Branch.listOfJson?]
  | cons first branches inductionHypothesis =>
    rw [List.forall_mem_cons] at each
    obtain ⟨item, items, same, later, rfl⟩ := List.forall₂_cons_right_iff.mp alike
    simp only [Branch.listOfJson?, branch each.1.1 each.1.2 same,
      inductionHypothesis each.2 later, Option.bind_eq_bind, Option.bind_some]

/-- An array of branches is decoded if the parts of each are. -/
theorem branchArray {branches : List Branch}
    (each : ∀ branch ∈ branches, branch.condition.Decoded ∧ ∀ node ∈ branch.body, node.Decoded)
    (alike : json.Alike (.array (Branch.listToJson branches))) :
    Branch.arrayOfJson? json = some branches := by
  obtain ⟨items, rfl, same⟩ := alike.eq_array
  rw [Branch.arrayOfJson?]
  exact branchList each same

end Parts

section Kinds

variable {value : Node}

/-- A precision statement is decoded from its two names. -/
theorem precision (level ty : String) : (Node.precision level ty).Decoded := by
  intro json alike
  obtain ⟨parts, rfl, held⟩ := exists_of_alike_tagged alike (by simp)
  simp only [List.forall_mem_cons] at held
  obtain ⟨graded, typed, -⟩ := held
  rw [Node.ofJson?.eq_def]
  simp only [NodeKind.ofName?_name, Option.bind_eq_bind, Option.bind_some,
    graded.stringMember?, typed.stringMember?]

/-- A declaration is decoded if its initial value is, or if it has none. -/
theorem declaration (qualifier : Option Qualifier) (ty name : String) {initial : Option Node}
    (each : ∀ node, initial = some node → node.Decoded) :
    (Node.declaration qualifier ty name initial).Decoded := by
  intro json alike
  obtain ⟨parts, rfl, held⟩ := exists_of_alike_tagged alike (by simp)
  simp only [List.forall_mem_cons] at held
  obtain ⟨qualified, typed, named, first, -⟩ := held
  rw [Node.ofJson?.eq_def]
  simp only [NodeKind.ofName?_name, Option.bind_eq_bind, Option.bind_some,
    Qualifier.ofJson?_of_holds qualified, typed.stringMember?, named.stringMember?,
    option each first]

/-- An assignment is decoded if the value is. -/
theorem assignment (name : String) (op : AssignOp) (assigned : value.Decoded) :
    (Node.assignment name op value).Decoded := by
  intro json alike
  obtain ⟨parts, rfl, held⟩ := exists_of_alike_tagged alike (by simp)
  simp only [List.forall_mem_cons] at held
  obtain ⟨named, spelled, ⟨_, found, same⟩, -⟩ := held
  rw [Node.ofJson?.eq_def]
  simp only [NodeKind.ofName?_name, Option.bind_eq_bind, Option.bind_some, named.stringMember?,
    spelled.stringMember?, AssignOp.ofName?_name, found, assigned same]

/-- An assignment to a property is decoded if the property and the value are. -/
theorem propertyAssignment {target : Node} (op : AssignOp) (owner : target.Decoded)
    (assigned : value.Decoded) : (Node.propertyAssignment target op value).Decoded := by
  intro json alike
  obtain ⟨parts, rfl, held⟩ := exists_of_alike_tagged alike (by simp)
  simp only [List.forall_mem_cons] at held
  obtain ⟨⟨_, found, same⟩, spelled, ⟨_, found', same'⟩, -⟩ := held
  rw [Node.ofJson?.eq_def]
  simp only [NodeKind.ofName?_name, Option.bind_eq_bind, Option.bind_some, found, owner same,
    spelled.stringMember?, AssignOp.ofName?_name, found', assigned same']

/-- An expression statement is decoded if its expression is. -/
theorem expression (inner : value.Decoded) : (Node.expression value).Decoded := by
  intro json alike
  obtain ⟨parts, rfl, held⟩ := exists_of_alike_tagged alike (by simp)
  simp only [List.forall_mem_cons] at held
  obtain ⟨⟨_, found, same⟩, -⟩ := held
  rw [Node.ofJson?.eq_def]
  simp only [NodeKind.ofName?_name, Option.bind_eq_bind, Option.bind_some, found, inner same]

/-- The empty statement is decoded from its kind. -/
theorem empty : Node.empty.Decoded := by
  intro json alike
  obtain ⟨parts, rfl, inner⟩ := alike.eq_single
  rw [inner.eq_null, Node.ofJson?.eq_def]
  simp only [NodeKind.ofName?_name, Option.bind_eq_bind, Option.bind_some]

/-- A function is decoded if the nodes of its body are. -/
theorem function (returnType name : String) (params : List Param) {body : List Node}
    (performed : ∀ node ∈ body, node.Decoded) :
    (Node.function returnType name params body).Decoded := by
  intro json alike
  obtain ⟨parts, rfl, held⟩ := exists_of_alike_tagged alike (by simp)
  simp only [List.forall_mem_cons] at held
  obtain ⟨typed, named, ⟨⟨_, _⟩, found, same⟩, ⟨_, found', same'⟩, -⟩ := held
  obtain ⟨items, rfl, each⟩ := same.eq_array
  rw [Node.ofJson?.eq_def]
  simp only [NodeKind.ofName?_name, Option.bind_eq_bind, Option.bind_some, typed.stringMember?,
    named.stringMember?, found, Json.array?, mapM_of_alike Param.ofJson?_of_alike each, found',
    array performed same']

/-- A conditional is decoded if its conditions and the nodes of all its bodies are. -/
theorem conditional {condition : Node} {body : List Node} {elseIfs : List Branch}
    {elseBody : Option (List Node)} (guard : condition.Decoded)
    (first : ∀ node ∈ body, node.Decoded)
    (others : ∀ branch ∈ elseIfs, branch.condition.Decoded ∧ ∀ node ∈ branch.body, node.Decoded)
    (last : ∀ nodes, elseBody = some nodes → ∀ node ∈ nodes, node.Decoded) :
    (Node.conditional condition body elseIfs elseBody).Decoded := by
  intro json alike
  obtain ⟨parts, rfl, held⟩ := exists_of_alike_tagged alike (by simp)
  simp only [List.forall_mem_cons] at held
  obtain ⟨⟨_, found, same⟩, ⟨_, found', same'⟩, ⟨_, found'', same''⟩, otherwise, -⟩ := held
  rw [Node.ofJson?.eq_def]
  simp only [NodeKind.ofName?_name, Option.bind_eq_bind, Option.bind_some, found, guard same,
    found', array first same', found'', branchArray others same'', optionArray last otherwise]

/-- A loop is decoded if the three parts of its head and the nodes of its body are. -/
theorem loop {init check increment : Node} {body : List Node} (first : init.Decoded)
    (second : check.Decoded) (third : increment.Decoded)
    (repeated : ∀ node ∈ body, node.Decoded) :
    (Node.loop init check increment body).Decoded := by
  intro json alike
  obtain ⟨parts, rfl, held⟩ := exists_of_alike_tagged alike (by simp)
  simp only [List.forall_mem_cons] at held
  obtain ⟨⟨_, found₁, same₁⟩, ⟨_, found₂, same₂⟩, ⟨_, found₃, same₃⟩, ⟨_, found, same⟩, -⟩ := held
  rw [Node.ofJson?.eq_def]
  simp only [NodeKind.ofName?_name, Option.bind_eq_bind, Option.bind_some, found₁, first same₁,
    found₂, second same₂, found₃, third same₃, found, array repeated same]

/-- A return statement is decoded if its value is, or if it has none. -/
theorem returning {result : Option Node} (each : ∀ node, result = some node → node.Decoded) :
    (Node.returning result).Decoded := by
  intro json alike
  obtain ⟨parts, rfl, held⟩ := exists_of_alike_tagged alike (by simp)
  simp only [List.forall_mem_cons] at held
  rw [Node.ofJson?.eq_def]
  simp only [NodeKind.ofName?_name, Option.bind_eq_bind, Option.bind_some, option each held.1,
    Option.map_some]

/-- A break statement is decoded from its kind. -/
theorem breaking : Node.breaking.Decoded := by
  intro json alike
  obtain ⟨parts, rfl, inner⟩ := alike.eq_single
  rw [inner.eq_null, Node.ofJson?.eq_def]
  simp only [NodeKind.ofName?_name, Option.bind_eq_bind, Option.bind_some]

/-- A node with nothing but a text is decoded if this text is what reading its kind takes. -/
theorem of_text (build : String → Node) {kind : NodeKind} {partName text : String}
    (form : (build text).toJson = taggedForm kind (.object [(partName, .string text)]))
    (reads : ∀ parts, Node.ofJson? (.object [(kind.name, parts)]) =
      (parts.stringMember? partName).map build) : (build text).Decoded := by
  intro json alike
  rw [form] at alike
  obtain ⟨parts, rfl, held⟩ := exists_of_alike_tagged alike (by simp)
  simp only [List.forall_mem_cons] at held
  rw [reads, held.1.stringMember?, Option.map_some]

/-- A float number is decoded with the text it was written with. -/
theorem float (text : String) : (Node.float text).Decoded := by
  refine of_text Node.float rfl fun parts => ?_
  rw [Node.ofJson?.eq_def]
  simp only [NodeKind.ofName?_name, Option.bind_eq_bind, Option.bind_some]

/-- An integer is decoded with the text it was written with. -/
theorem int (text : String) : (Node.int text).Decoded := by
  refine of_text Node.int rfl fun parts => ?_
  rw [Node.ofJson?.eq_def]
  simp only [NodeKind.ofName?_name, Option.bind_eq_bind, Option.bind_some]

/-- A variable is decoded from its name. -/
theorem reference (name : String) : (Node.reference name).Decoded := by
  refine of_text Node.reference rfl fun parts => ?_
  rw [Node.ofJson?.eq_def]
  simp only [NodeKind.ofName?_name, Option.bind_eq_bind, Option.bind_some]

/-- A parenthesized expression is decoded if the inner one is. -/
theorem parenthesized (inner : value.Decoded) : (Node.parenthesized value).Decoded := by
  intro json alike
  obtain ⟨parts, rfl, held⟩ := exists_of_alike_tagged alike (by simp)
  simp only [List.forall_mem_cons] at held
  obtain ⟨⟨_, found, same⟩, -⟩ := held
  rw [Node.ofJson?.eq_def]
  simp only [NodeKind.ofName?_name, Option.bind_eq_bind, Option.bind_some, found, inner same]

/-- A unary expression is decoded if its operand is. -/
theorem unary (op : UnaryOp) (inner : value.Decoded) : (Node.unary op value).Decoded := by
  intro json alike
  obtain ⟨parts, rfl, held⟩ := exists_of_alike_tagged alike (by simp)
  simp only [List.forall_mem_cons] at held
  obtain ⟨spelled, ⟨_, found, same⟩, -⟩ := held
  rw [Node.ofJson?.eq_def]
  simp only [NodeKind.ofName?_name, Option.bind_eq_bind, Option.bind_some,
    spelled.stringMember?, UnaryOp.ofName?_name, found, inner same]

/-- A call is decoded if the function and the arguments are. -/
theorem call {callee : Node} {args : List Node} (called : callee.Decoded)
    (given : ∀ node ∈ args, node.Decoded) : (Node.call callee args).Decoded := by
  intro json alike
  obtain ⟨parts, rfl, held⟩ := exists_of_alike_tagged alike (by simp)
  simp only [List.forall_mem_cons] at held
  obtain ⟨⟨_, found, same⟩, ⟨_, found', same'⟩, -⟩ := held
  rw [Node.ofJson?.eq_def]
  simp only [NodeKind.ofName?_name, Option.bind_eq_bind, Option.bind_some, found, called same,
    found', array given same']

/-- A chain of operators is decoded if its operands are. -/
theorem binary (ops : List BinaryOp) {operands : List Node}
    (each : ∀ node ∈ operands, node.Decoded) : (Node.binary ops operands).Decoded := by
  intro json alike
  obtain ⟨parts, rfl, held⟩ := exists_of_alike_tagged alike (by simp)
  simp only [List.forall_mem_cons] at held
  obtain ⟨⟨⟨_, _⟩, found, same⟩, ⟨_, found', same'⟩, -⟩ := held
  obtain ⟨items, rfl, spelled⟩ := same.eq_array
  rw [Node.ofJson?.eq_def]
  simp only [NodeKind.ofName?_name, Option.bind_eq_bind, Option.bind_some, found, Json.array?,
    mapM_of_alike BinaryOp.ofJson?_of_alike spelled, found', array each same']

/-- A property is decoded if its owner is. -/
theorem property (name : String) (owner : value.Decoded) : (Node.property value name).Decoded := by
  intro json alike
  obtain ⟨parts, rfl, held⟩ := exists_of_alike_tagged alike (by simp)
  simp only [List.forall_mem_cons] at held
  obtain ⟨⟨_, found, same⟩, named, -⟩ := held
  rw [Node.ofJson?.eq_def]
  simp only [NodeKind.ofName?_name, Option.bind_eq_bind, Option.bind_some, found, owner same,
    named.stringMember?]

/-- A step by one is decoded if its operand is, whichever side it stands on. -/
theorem crement (op : CrementOp) (trailing : Bool) (stepped : value.Decoded) :
    (Node.crement op trailing value).Decoded := by
  intro json alike
  obtain ⟨parts, rfl, held⟩ := exists_of_alike_tagged alike (by simp)
  simp only [List.forall_mem_cons] at held
  obtain ⟨spelled, placed, ⟨_, found, same⟩, -⟩ := held
  rw [Node.ofJson?.eq_def]
  simp only [NodeKind.ofName?_name, Option.bind_eq_bind, Option.bind_some,
    spelled.stringMember?, CrementOp.ofName?_name, placed.boolMember?, found, stepped same]

/-- A chunk is decoded from its text. -/
theorem chunk (text : String) : (Node.chunk text).Decoded := by
  refine of_text Node.chunk rfl fun parts => ?_
  rw [Node.ofJson?.eq_def]
  simp only [NodeKind.ofName?_name, Option.bind_eq_bind, Option.bind_some]

end Kinds

end Node.Decoded

/-- Every node is decoded from all that is alike to its form. -/
theorem Node.decoded (node : Node) : node.Decoded := by
  induction node using Node.induction with
  | precision level ty => exact .precision level ty
  | declaration qualifier ty name value each => exact .declaration qualifier ty name each
  | assignment name op value assigned => exact .assignment name op assigned
  | propertyAssignment target op value owner assigned => exact .propertyAssignment op owner assigned
  | expression value inner => exact .expression inner
  | empty => exact .empty
  | function returnType name params body performed =>
    exact .function returnType name params performed
  | conditional condition body elseIfs elseBody guard first others last =>
    exact .conditional guard first others last
  | loop init check increment body first second third repeated =>
    exact .loop first second third repeated
  | returning value each => exact .returning each
  | breaking => exact .breaking
  | float text => exact .float text
  | int text => exact .int text
  | reference name => exact .reference name
  | parenthesized value inner => exact .parenthesized inner
  | unary op value inner => exact .unary op inner
  | call callee args called given => exact .call called given
  | binary ops operands each => exact .binary ops each
  | property value name owner => exact .property name owner
  | crement op trailing value stepped => exact .crement op trailing stepped
  | chunk text => exact .chunk text

/-- Trees and programs keep everything in their JSON form. -/
theorem Node.toJson_lossless :
    Json.Lossless Node.toJson Node.ofJson? ∧
      Json.Lossless (fun nodes => .array (Node.listToJson nodes)) Node.arrayOfJson? := by
  constructor
  · exact .of_alike fun _ node alike => node.decoded alike
  · exact .of_alike fun _ _ alike => Decoded.array (fun node _ => node.decoded) alike

/-- The members of this conditional are written in another order, and its last body is empty but
    not absent. -/
theorem Node.toJson_lossless_reordered :
    let form := Json.object [("If", .object [("else_body", .array []), ("else_ifs", .array []),
      ("body", .array []), ("condition", .object [("Break", .null)])])]
    form.Alike (Node.conditional .breaking [] [] (some [])).toJson ∧
      ∃ again, Node.ofJson? form = some again ∧ form.Alike again.toJson := by
  intro form
  have alike : form.Alike (Node.conditional .breaking [] [] (some [])).toJson := by
    refine .object (.refl _) rfl (.cons (.object (List.reverse_perm _).symm rfl ?_) .nil)
    exact List.forall₂_same.mpr fun part _ => .same part
  exact ⟨alike, toJson_lossless.1.encoded _ _ alike⟩

end ShaderSource
