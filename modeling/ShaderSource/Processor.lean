import ShaderSource.Constant
import ShaderSource.Diagnostic.Basic
import ShaderSource.Grammar.Production
import ShaderSource.Tree.Printer
import ShaderSource.Uniform

/-!
# Processing shaders

A processor holds the values and types of the host and collects the uniforms
of the shaders that it processes. A source text gets its placeholders
exchanged and is read as a program; one walk through the program registers its
uniforms and gives its constants their values, and the result is written out
again.

A failure leaves the processor as it was. The uniforms of a shader are added
only when all of it has succeeded.
-/

namespace ShaderSource

/-- The state on the side of the host. -/
structure Processor where
  /-- If not set, only placeholders are exchanged. -/
  enabled : Bool
  data : DataTable
  placeholders : PlaceholderTable
  /-- The uniforms of all shaders processed so far. -/
  uniforms : UniformTable

/-- What the walk through one shader collects: its uniforms, and its first failure. -/
structure Findings where
  uniforms : UniformTable
  failure : Option ConstantError

/-- Registers a uniform and gives a value to a constant. -/
def processingVisitor (data : DataTable) : Visitor Findings := fun node => do
  modify fun findings => { findings with uniforms := registerUniform node findings.uniforms }
  match substituteConstant node data with
  | .ok (some changed) => return .edit changed
  | .ok none => return .keep
  | .error cause =>
    modify fun findings =>
      { findings with failure := findings.failure.or (some ⟨declaredName node, cause⟩) }
    return .keep

namespace Processor

/-- A processor without values, types and uniforms. -/
def new : Processor := ⟨true, .empty, .empty, .empty⟩

/-- The failure of a text that is no program. -/
def parseFailure (error : ParseError) (text : String) : ShaderError :=
  .placed ((Diagnostic.ofCause (.parse error)).withSource text)

/-- The failure of a declaration whose constant has no literal. -/
def constantFailure (failure : ConstantError) : ShaderError :=
  .placed ((Diagnostic.ofCause (.literal failure.cause)).withDeclaration failure.declaration)

/-- Processes the program of a text without placeholders. -/
def processProgram (processor : Processor) (text : String) :
    Except ShaderError String × Processor :=
  match compile text with
  | .error error => (.error (parseFailure error text), processor)
  | .ok nodes =>
    let walker := Walker.empty.on .declaration (processingVisitor processor.data)
    match walker.walk nodes ⟨.empty, none⟩ with
    | (_, ⟨_, some failure⟩) => (.error (constantFailure failure), processor)
    | (nodes, ⟨uniforms, none⟩) =>
      (.ok (renderProgram nodes),
        { processor with uniforms := processor.uniforms.extend uniforms.entries })

/-- Processes a source text: the result or the failure, and the processor after it. -/
def tryProcess (processor : Processor) (source : String) :
    Except ShaderError String × Processor :=
  match substitutePlaceholders source processor.data processor.placeholders with
  | .error error => (.error (.bare (.literal error)), processor)
  | .ok text => if processor.enabled then processor.processProgram text else (.ok text, processor)

/-- Processes a source text, whatever happens. After a failure the result is the text with
    its placeholders exchanged, or the text itself if they cannot be. -/
def process (processor : Processor) (source : String) : String × Processor :=
  match processor.tryProcess source with
  | (.ok text, after) => (text, after)
  | (.error _, after) =>
    match substitutePlaceholders source after.data after.placeholders with
    | .ok text => (text, after)
    | .error _ => (source, after)

end Processor

end ShaderSource
