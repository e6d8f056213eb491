import ShaderSource.Processor
import ShaderSource.Proofs.Constant
import ShaderSource.Proofs.Literal
import ShaderSource.Proofs.RoundTrip
import ShaderSource.Proofs.Table
import ShaderSource.Proofs.Uniform

/-!
# Processed programs

Processing a program gives its constants their values and registers its
uniforms, as if one was done after the other. The result is again a program:
where finished source text stands in the tree, the expression that it parses to
stands in the program. All its constants with a value of the host have it, so
processing the result changes nothing, and its uniforms are registered already.
-/

namespace ShaderSource

section Visits

variable {data : DataTable}

/-- Processing looks only at qualified declarations, and gives them finished source text. -/
theorem processingVisitor_shallow (data : DataTable) : (processingVisitor data).Shallow := by
  refine .of_verdict data (fun _ _ _ => rfl) fun node state => ?_
  unfold processingVisitor constantVerdict
  cases substituteConstant node data with
  | error => rfl
  | ok given => cases given <;> rfl

/-- What a visit adds to the findings. -/
def Findings.add (data : DataTable) (findings : Findings) (node : Node) : Findings :=
  ⟨registerUniform node findings.uniforms, findings.failure.or (constantError? data node)⟩

/-- A visit gives a node its value and adds what it finds. -/
theorem processingVisitor_visit (data : DataTable) (node : Node) (findings : Findings) :
    (processingVisitor data).visit node findings = (node.valued data, findings.add data node) := by
  obtain ⟨uniforms, failure⟩ := findings
  cases node with
  | declaration qualifier ty name value =>
    simp only [Visitor.visit, processingVisitor, Node.valued, Findings.add, constantError?]
    cases substituteConstant (.declaration qualifier ty name value) data with
    | error => rfl
    | ok given => cases given <;> cases failure <;> rfl
  | _ => cases failure <;> rfl

/-- The visits of some nodes register their uniforms and find their first failure. -/
theorem Findings.foldl_add (data : DataTable) (nodes : List Node) (findings : Findings) :
    nodes.foldl (Findings.add data) findings =
      ⟨nodes.foldl (fun table node => registerUniform node table) findings.uniforms,
        nodes.foldl (fun failure node => failure.or (constantError? data node))
          findings.failure⟩ := by
  induction nodes generalizing findings with
  | nil => rfl
  | cons node nodes inductionHypothesis => exact inductionHypothesis (findings.add data node)

/-- A walk gives each node of a program its value, registers the uniforms and keeps the first
    failure. -/
theorem processing_walk (data : DataTable) {nodes : List Node} (shaped : ShapedProgram nodes) :
    (processingVisitor data).walker.walk nodes ⟨.empty, none⟩ =
      (nodes.map (Node.valued data),
        ⟨(registerUniforms nodes .empty).2, nodes.findSome? (constantError? data)⟩) := by
  rw [(processingVisitor_shallow data).walk_eq shaped,
    mapM_visits (processingVisitor_visit data) nodes _, Findings.foldl_add, foldl_or,
    Option.none_or, registerUniforms_eq shaped]

end Visits

namespace Processor

/-- Processing a program gives its constants their values and registers its uniforms. -/
theorem processProgram_eq (processor : Processor) {text : String} {nodes : List Node}
    (compiled : compile text = .ok nodes) (shaped : ShapedProgram nodes) :
    processor.processProgram text =
      match substituteConstants nodes processor.data with
      | .error failure => (.error (constantFailure failure), processor)
      | .ok substituted =>
        (.ok (renderProgram substituted),
          { processor with
            uniforms := processor.uniforms.extend (registerUniforms nodes .empty).2.entries }) := by
  have walked := processing_walk processor.data shaped
  have walker : (Walker.empty.on .declaration (processingVisitor processor.data)).walk nodes
      ⟨.empty, none⟩ = _ := walked
  rw [substituteConstants_eq shaped]
  unfold processProgram
  rw [compiled]
  dsimp only
  rw [walker]
  cases nodes.findSome? (constantError? processor.data) <;> rfl

/-- What a successful processing has done on the way to its result. -/
theorem exists_of_tryProcess {processor after : Processor} {source out : String}
    (enabled : processor.enabled = true)
    (processed : processor.tryProcess source = (.ok out, after)) :
    ∃ text nodes substituted,
      substitutePlaceholders source processor.data processor.placeholders = .ok text ∧
      compile text = .ok nodes ∧
      substituteConstants nodes processor.data = .ok substituted ∧
      out = renderProgram substituted ∧
      after = { processor with
        uniforms := processor.uniforms.extend (registerUniforms nodes .empty).2.entries } := by
  unfold tryProcess at processed
  cases exchanged : substitutePlaceholders source processor.data processor.placeholders with
  | error => simp [exchanged] at processed
  | ok text =>
    simp only [exchanged, enabled, if_true] at processed
    cases compiled : compile text with
    | error => simp [processProgram, compiled] at processed
    | ok nodes =>
      obtain ⟨_, _, _, shaped, _⟩ := exists_of_compile compiled
      rw [processProgram_eq processor compiled shaped] at processed
      cases result : substituteConstants nodes processor.data with
      | error => simp [result] at processed
      | ok substituted =>
        simp only [result, Prod.mk.injEq, Except.ok.injEq] at processed
        exact ⟨text, nodes, substituted, rfl, compiled, result, processed.1.symm, processed.2.symm⟩

end Processor

section Resolution

/-- A declaration whose value is finished source text, with the expression that the text parses
    to in its place; nothing if it is no expression. -/
def Node.parseChunk? : Node → Option Node
  | .declaration qualifier ty name (some (.chunk text)) =>
    (parseExpression? text).map fun value => .declaration qualifier ty name (some value)
  | node => some node

/-- Finished source text has no shape: no program that was read has any. -/
theorem Shaped.ne_chunk {category : Category} {node : Node} (shaped : Shaped category node)
    (text : String) : node ≠ .chunk text := by
  induction shaped with
  | ofPrimary _ found | ofOperand _ found | ofClause _ found | ofStatement _ found => exact found
  | _ => exact Node.noConfusion

/-- The parts of a declaration have their shapes, whether it is qualified or not. -/
theorem Shaped.declared {category : Category} {node : Node} (shaped : Shaped category node)
    {qualifier : Option Qualifier} {ty name : String} {initial : Option Node}
    (same : node = .declaration qualifier ty name initial) :
    isNameText ty = true ∧ isNameText name = true ∧
      ∀ value, initial = some value → Shaped .expression value := by
  induction shaped with
  | declaration typed named inner | qualified typed named inner =>
    obtain ⟨_, rfl, rfl, rfl⟩ := Node.declaration.inj same
    exact ⟨typed, named, inner⟩
  | ofPrimary _ found | ofOperand _ found | ofClause _ found | ofStatement _ found =>
    exact found same
  | _ => exact Node.noConfusion same

/-- There is no finished source text in a program. -/
theorem Shaped.parseChunk? {node : Node} (shaped : Shaped .top node) :
    node.parseChunk? = some node := by
  unfold Node.parseChunk?
  split
  case h_1 text =>
    have inner := (shaped.declared rfl).2.2 _ rfl
    exact absurd rfl (inner.ne_chunk text)
  case h_2 => rfl

variable {data : DataTable}

/-- A node with its value from the host, without finished source text in it: it is printed
    alike, gets no further value and declares the same uniform. -/
structure Node.ResolvedAs (data : DataTable) (node resolved : Node) : Prop where
  parsed : (node.valued data).parseChunk? = some resolved
  shaped : Shaped .top resolved
  within : resolved.Within deepestLevel 0
  printed : resolved.render = (node.valued data).render
  settled : substituteConstant resolved data = .ok none
  registered : registerUniform resolved = registerUniform node

/-- The literal of a constant parses to an expression that can stand in its place. -/
theorem Shaped.exists_resolved {node : Node} (shaped : Shaped .top node)
    (within : node.Within deepestLevel 0) {result : Option Node}
    (substituted : substituteConstant node data = .ok result) :
    ∃ resolved, node.ResolvedAs data resolved := by
  cases result with
  | none =>
    have same := Node.valued_of_none substituted
    refine ⟨node, ?_, shaped, within, ?_, substituted, rfl⟩
    · rw [same]
      exact shaped.parseChunk?
    · rw [same]
  | some changed =>
    have given := Node.valued_of_some substituted
    obtain ⟨ty, name, text, rfl, rfl, literal⟩ := substituteConstant_some substituted
    obtain ⟨value, known, _, rendered⟩ := constantLiteral_some literal
    obtain ⟨expression, written, _⟩ := exists_renderLiteral rendered
    have parsed := written.parse (by decide)
    refine ⟨.declaration (some .const) ty name (some expression), ?_, ?_, ?_, ?_, rfl, rfl⟩
    · rw [given, Node.parseChunk?, parsed]
      rfl
    · obtain ⟨typed, named, _⟩ := shaped.declared rfl
      refine .qualified typed named fun node inside => ?_
      obtain rfl := Option.some.inj inside
      exact written.shaped
    · exact written.shallow deepestLevel 1 (by decide)
    · have printed : expression.print true = text := written.printed
      have literal : (Node.chunk text).print true = text := rfl
      rw [given, Node.render, Node.render, Node.print_declaration, Node.print_declaration,
        Node.initialText, Node.initialText, printed, literal]

/-- A program with its values from the host, without finished source text in it. -/
structure ResolvedProgram (data : DataTable) (nodes tree : List Node) : Prop where
  parsed : (nodes.map (Node.valued data)).mapM Node.parseChunk? = some tree
  shaped : ShapedProgram tree
  within : ∀ node ∈ tree, node.Within deepestLevel 0
  printed : tree.map Node.render = (nodes.map (Node.valued data)).map Node.render
  settled : ∀ node ∈ tree, substituteConstant node data = .ok none
  registered : tree.map registerUniform = nodes.map registerUniform

namespace ResolvedProgram

/-- The empty program is resolved. -/
theorem nil : ResolvedProgram data [] [] where
  parsed := rfl
  shaped := by simp [ShapedProgram]
  within := by simp
  printed := rfl
  settled := by simp
  registered := rfl

/-- A program is resolved node by node. -/
theorem cons {node resolved : Node} {nodes tree : List Node} (first : node.ResolvedAs data resolved)
    (others : ResolvedProgram data nodes tree) :
    ResolvedProgram data (node :: nodes) (resolved :: tree) where
  parsed := by
    rw [List.map_cons, List.mapM_cons, first.parsed, others.parsed]
    rfl
  shaped := List.forall_mem_cons.mpr ⟨first.shaped, others.shaped⟩
  within := List.forall_mem_cons.mpr ⟨first.within, others.within⟩
  printed := by rw [List.map_cons, first.printed, others.printed, List.map_cons, List.map_cons]
  settled := List.forall_mem_cons.mpr ⟨first.settled, others.settled⟩
  registered := by rw [List.map_cons, first.registered, others.registered, List.map_cons]

/-- If all constants of a program have literals, the literals can be parsed in their places. -/
theorem exists_tree {nodes : List Node} (shaped : ShapedProgram nodes)
    (within : ∀ node ∈ nodes, node.Within deepestLevel 0)
    (all : ∀ node ∈ nodes, ∃ result, substituteConstant node data = .ok result) :
    ∃ tree, ResolvedProgram data nodes tree := by
  induction nodes with
  | nil => exact ⟨[], nil⟩
  | cons node nodes inductionHypothesis =>
    obtain ⟨result, substituted⟩ := all node (by simp)
    obtain ⟨resolved, first⟩ :=
      (shaped node (by simp)).exists_resolved (within node (by simp)) substituted
    obtain ⟨tree, others⟩ := inductionHypothesis
      (fun other member => shaped other (by simp [member]))
      (fun other member => within other (by simp [member]))
      fun other member => all other (by simp [member])
    exact ⟨resolved :: tree, cons first others⟩

variable {nodes tree : List Node}

/-- A resolved program is printed like the one with finished source text in it. -/
theorem renderProgram_eq (resolved : ResolvedProgram data nodes tree) :
    renderProgram tree = renderProgram (nodes.map (Node.valued data)) := by
  rw [renderProgram, renderProgram, resolved.printed]

/-- The text with the literals in it is compiled to the program with the expressions. -/
theorem compile_eq (resolved : ResolvedProgram data nodes tree) :
    compile (renderProgram (nodes.map (Node.valued data))) = .ok tree := by
  have nested : NestedProgram deepestLevel tree :=
    ⟨by decide, Node.listWithin_iff.mpr resolved.within⟩
  rw [← resolved.renderProgram_eq]
  exact resolved.shaped.compile_printed nested

/-- No constant of the program gets another value. -/
theorem substituteConstants_eq (resolved : ResolvedProgram data nodes tree) :
    substituteConstants tree data = .ok tree :=
  substituteConstants_settled resolved.shaped resolved.settled

/-- The program has the same uniforms. -/
theorem registerUniforms_eq (resolved : ResolvedProgram data nodes tree)
    (shaped : ShapedProgram nodes) (table : UniformTable) :
    (registerUniforms tree table).2 = (registerUniforms nodes table).2 := by
  have folded : ∀ program : List Node,
      program.foldl (fun table node => registerUniform node table) table =
        (program.map registerUniform).foldl (fun table register => register table) table :=
    fun program => by rw [List.foldl_map]
  rw [ShaderSource.registerUniforms_eq resolved.shaped, ShaderSource.registerUniforms_eq shaped,
    folded, folded, resolved.registered]

end ResolvedProgram

end Resolution

namespace Processor

/-- Without placeholders every text stays as it is. -/
theorem substitutePlaceholders_empty (source : String) (data : DataTable) :
    substitutePlaceholders source data .empty = .ok source := by
  have same : String.ofList source.toList = source := String.ofList_toList
  exact congrArg Except.ok same

/-- The result of processing is a program: the one with its values from the host, where each
    literal is the expression that it parses to. Without placeholders processing it once more
    changes neither the text nor the processor. -/
theorem tryProcess_stable {processor after : Processor} {source out : String}
    (enabled : processor.enabled = true)
    (processed : processor.tryProcess source = (.ok out, after)) :
    (∃ text nodes substituted tree,
      substitutePlaceholders source processor.data processor.placeholders = .ok text ∧
      compile text = .ok nodes ∧
      substituteConstants nodes processor.data = .ok substituted ∧
      substituted.mapM Node.parseChunk? = some tree ∧
      compile out = .ok tree) ∧
    (processor.placeholders = .empty → after.tryProcess out = (.ok out, after)) := by
  obtain ⟨text, nodes, substituted, exchanged, compiled, valued, rfl, rfl⟩ :=
    exists_of_tryProcess enabled processed
  obtain ⟨_, _, _, shaped, nested⟩ := exists_of_compile compiled
  obtain ⟨rfl, all⟩ := substituteConstants_ok shaped valued
  obtain ⟨tree, resolved⟩ :=
    ResolvedProgram.exists_tree shaped (Node.listWithin_iff.mp nested.2) all
  refine ⟨⟨text, nodes, _, tree, exchanged, compiled, valued, resolved.parsed,
    resolved.compile_eq⟩, fun empty => ?_⟩
  have distinct := (registerUniforms nodes .empty).2.distinct
  unfold tryProcess
  dsimp only
  rw [empty, substitutePlaceholders_empty]
  simp only [enabled, if_true]
  rw [processProgram_eq _ resolved.compile_eq resolved.shaped]
  simp only [resolved.substituteConstants_eq, resolved.registerUniforms_eq shaped,
    resolved.renderProgram_eq, Table.extend_extend _ distinct]

/-- A negative zero, a number without an exponent and a fraction are components of a vector that
    is read back. -/
theorem tryProcess_stable_vector :
    ∃ processor after : Processor,
      processor.tryProcess "uniform float uTime; const vec3 size;" =
        (.ok "uniform float uTime;\nconst vec3 size = vec3(-0, 1000000000000000000000, 0.5);",
          after) ∧
      (∃ tree, compile
          "uniform float uTime;\nconst vec3 size = vec3(-0, 1000000000000000000000, 0.5);" =
        .ok tree) ∧
      after.tryProcess
          "uniform float uTime;\nconst vec3 size = vec3(-0, 1000000000000000000000, 0.5);" =
        (.ok "uniform float uTime;\nconst vec3 size = vec3(-0, 1000000000000000000000, 0.5);",
          after) := by
  let data : DataTable := .ofList
    [("size", .vector [.zero true, .ofDecimal false 1 21, .ofDecimal false 5 (-1)])]
  let processor : Processor := ⟨true, data, .empty, .empty⟩
  have result : (processor.tryProcess "uniform float uTime; const vec3 size;").1 =
      .ok "uniform float uTime;\nconst vec3 size = vec3(-0, 1000000000000000000000, 0.5);" := by
    decide +kernel
  have processed : processor.tryProcess "uniform float uTime; const vec3 size;" =
      (.ok "uniform float uTime;\nconst vec3 size = vec3(-0, 1000000000000000000000, 0.5);",
        (processor.tryProcess "uniform float uTime; const vec3 size;").2) := by
    rw [← result]
  obtain ⟨⟨_, _, _, tree, _, _, _, _, compiled⟩, again⟩ := tryProcess_stable rfl processed
  exact ⟨processor, _, processed, ⟨tree, compiled⟩, again rfl⟩

end Processor

end ShaderSource
