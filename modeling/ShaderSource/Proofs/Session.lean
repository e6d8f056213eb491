import Mathlib.Data.List.DropRight
import ShaderSource.Proofs.Passes

/-!
# Runs of a processor

A host uses one processor for many shaders, and changes the values, types and the
switch between them as it likes. Whatever it does, processing changes nothing but
the uniforms. These are at any time those of the programs that were processed
without a failure since they were last cleared, a later one in place of an earlier
one with the same key; what failed, or was done while processing was switched off,
has left no trace.
-/

namespace ShaderSource

/-- What a host does with a processor. -/
inductive Operation where
  /-- Adds, changes or removes values. -/
  | editData (edit : DataTable → DataTable)
  /-- Adds, changes or removes the types of placeholders. -/
  | editPlaceholders (edit : PlaceholderTable → PlaceholderTable)
  | enable (enabled : Bool)
  | clearUniforms
  | tryProcess (source : String)
  | process (source : String)

/-- Whether an operation clears the uniforms. -/
def Operation.isClear : Operation → Bool
  | clearUniforms => true
  | _ => false

/-- The uniforms that a program binds, in the order of the text: a declaration with the word
    `uniform` binds the key of its name to its name and its type, and nothing else binds any. -/
def boundUniforms : List Node → List (String × UniformBinding)
  | [] => []
  | .declaration (some .uniform) ty name _ :: nodes =>
    (uniformKey name, { sourceName := name, ty := ty }) :: boundUniforms nodes
  | _ :: nodes => boundUniforms nodes

/-- These are the uniforms that are registered. -/
theorem boundUniforms_eq (nodes : List Node) : boundUniforms nodes = declaredUniforms nodes := by
  fun_induction boundUniforms nodes with
  | case1 => rfl
  | case2 ty name value nodes inductionHypothesis =>
    rw [inductionHypothesis]
    rfl
  | case3 node nodes other inductionHypothesis =>
    have undeclared : declaredUniform? node = none := by
      unfold declaredUniform?
      split
      case h_1 ty name value => exact absurd rfl (other ty name value)
      case h_2 => rfl
    rw [inductionHypothesis, declaredUniforms, declaredUniforms,
      List.filterMap_cons_none undeclared]

namespace Processor

/-- The processor after an operation. -/
def perform (processor : Processor) : Operation → Processor
  | .editData edit => { processor with data := edit processor.data }
  | .editPlaceholders edit => { processor with placeholders := edit processor.placeholders }
  | .enable enabled => { processor with enabled := enabled }
  | .clearUniforms => { processor with uniforms := .empty }
  | .tryProcess source => (processor.tryProcess source).2
  | .process source => (processor.process source).2

/-- The processor after some operations in turn. -/
def run (processor : Processor) (operations : List Operation) : Processor :=
  operations.foldl perform processor

/-- The steps of a run: each operation with the processor that it is performed on. -/
def steps : Processor → List Operation → List (Processor × Operation)
  | _, [] => []
  | processor, operation :: operations =>
    (processor, operation) :: (processor.perform operation).steps operations

/-- The uniforms that a source text binds once its placeholders are exchanged, in the order
    of the text; none if it is no program then. -/
def sourceUniforms (processor : Processor) (source : String) : List (String × UniformBinding) :=
  match substitutePlaceholders source processor.data processor.placeholders with
  | .error _ => []
  | .ok text =>
    match compile text with
    | .error _ => []
    | .ok nodes => boundUniforms nodes

/-- The uniforms that a call adds: those of its source text if processing is switched on and
    does not fail, and none otherwise. -/
def callUniforms (processor : Processor) (source : String) : List (String × UniformBinding) :=
  if processor.enabled then
    match (processor.tryProcess source).1 with
    | .error _ => []
    | .ok _ => processor.sourceUniforms source
  else []

/-- The uniforms that one step of a run adds. Only calls add any. -/
def stepUniforms : Processor × Operation → List (String × UniformBinding)
  | (processor, .tryProcess source) | (processor, .process source) =>
    processor.callUniforms source
  | _ => []

section Call

variable (processor : Processor) (source : String)

/-- While processing is switched off, only placeholders are exchanged. -/
theorem tryProcess_disabled {processor : Processor} (disabled : processor.enabled = false) :
    processor.tryProcess source =
      ((substitutePlaceholders source processor.data processor.placeholders).mapError
        fun cause => .bare (.literal cause), processor) := by
  unfold tryProcess
  cases substitutePlaceholders source processor.data processor.placeholders with
  | error cause => rfl
  | ok text =>
    dsimp only
    rw [if_neg (Bool.eq_false_iff.mp disabled)]
    rfl

/-- A call that fails leaves the processor as it was. -/
theorem tryProcess_snd_of_error {processor : Processor} {source : String} {error : ShaderError}
    (failed : (processor.tryProcess source).1 = .error error) :
    (processor.tryProcess source).2 = processor := by
  unfold tryProcess at failed ⊢
  cases exchanged : substitutePlaceholders source processor.data processor.placeholders with
  | error cause => rfl
  | ok text =>
    rw [exchanged] at failed
    dsimp only at failed ⊢
    by_cases enabled : processor.enabled = true
    · rw [if_pos enabled, processProgram_eq_passes] at failed ⊢
      cases compiled : compile text with
      | error error => rfl
      | ok nodes =>
        rw [compiled] at failed
        dsimp only at failed ⊢
        cases result : substituteConstants nodes processor.data with
        | error failure => rfl
        | ok substituted => simp [result] at failed
    · rw [if_neg enabled]

/-- A call adds its uniforms, and leaves everything else as it was. -/
theorem tryProcess_snd :
    (processor.tryProcess source).2 =
      { processor with
        uniforms := processor.uniforms.extend (processor.callUniforms source) } := by
  unfold callUniforms
  by_cases enabled : processor.enabled = true
  · rw [if_pos enabled]
    cases result : (processor.tryProcess source).1 with
    | error error => exact tryProcess_snd_of_error result
    | ok out =>
      obtain ⟨text, nodes, substituted, exchanged, compiled, _, _, changed⟩ :=
        exists_of_tryProcess enabled (Prod.ext result rfl)
      obtain ⟨_, _, _, shaped, _⟩ := exists_of_compile compiled
      refine changed.trans ?_
      rw [extend_registerUniforms shaped, registerUniforms_table shaped]
      unfold sourceUniforms
      rw [exchanged]
      dsimp only
      rw [compiled]
      dsimp only
      rw [boundUniforms_eq]
  · rw [if_neg enabled, tryProcess_disabled source (Bool.eq_false_of_not_eq_true enabled)]
    rfl

/-- A call that goes on after a failure leaves the same processor as one that stops. -/
theorem process_snd : (processor.process source).2 = (processor.tryProcess source).2 := by
  unfold process
  split
  case h_1 text after processed => rw [processed]
  case h_2 error after processed =>
    rw [processed]
    cases substitutePlaceholders source after.data after.placeholders <;> rfl

/-- A call that goes on after failures gives the result of one that stops, else that of one
    without processing, else the source text. -/
theorem process_fst :
    (processor.process source).1 =
      match (processor.tryProcess source).1 with
      | .ok text => text
      | .error _ =>
        match (({ processor with enabled := false } : Processor).tryProcess source).1 with
        | .ok text => text
        | .error _ => source := by
  have disabled : ({ processor with enabled := false } : Processor).enabled = false := rfl
  rw [tryProcess_disabled source disabled]
  unfold process
  split
  case h_1 text after processed => rw [processed]
  case h_2 error after processed =>
    have same : after = processor := by
      rw [← tryProcess_snd_of_error (congrArg Prod.fst processed), processed]
    rw [processed, same]
    cases substitutePlaceholders source processor.data processor.placeholders <;> rfl

end Call

/-- What one operation does to the uniforms. -/
theorem perform_uniforms (processor : Processor) (operation : Operation) :
    (processor.perform operation).uniforms =
      if operation.isClear then .empty
      else processor.uniforms.extend (stepUniforms (processor, operation)) := by
  cases operation with
  | tryProcess source => exact congrArg uniforms (tryProcess_snd processor source)
  | process source =>
    exact congrArg uniforms ((process_snd processor source).trans (tryProcess_snd processor source))
  | _ => rfl

/-- A further operation is one more step, on the processor that the others leave. -/
theorem steps_concat (processor : Processor) (operations : List Operation)
    (operation : Operation) :
    processor.steps (operations ++ [operation]) =
      processor.steps operations ++ [(processor.run operations, operation)] := by
  induction operations generalizing processor with
  | nil => rfl
  | cons first operations inductionHypothesis =>
    exact congrArg _ (inductionHypothesis (processor.perform first))

/-- The uniforms after a run are those from its last clearing on, or from its start if there is
    none: each call since then has added its own. -/
theorem run_uniforms (start : Processor) (operations : List Operation) :
    (start.run operations).uniforms =
      (if operations.any Operation.isClear then .empty else start.uniforms).extend
        (((start.steps operations).rtakeWhile fun step => !step.2.isClear).flatMap
          stepUniforms) := by
  induction operations using List.reverseRecOn with
  | nil => rfl
  | append_singleton operations operation inductionHypothesis =>
    have last : start.run (operations ++ [operation]) =
        (start.run operations).perform operation := List.foldl_concat ..
    rw [last, perform_uniforms, steps_concat, List.any_append, List.rtakeWhile_concat]
    by_cases clear : operation.isClear = true
    · simp [clear, Table.extend]
    · rw [Bool.not_eq_true] at clear
      rw [inductionHypothesis]
      simp only [clear, Bool.not_false, Bool.false_eq_true, if_false, if_true, List.any_cons,
        List.any_nil, Bool.or_false, List.flatMap_append, List.flatMap_singleton, Table.extend,
        List.foldl_append]

/-- Whatever a host has done with a processor, its uniforms are those that the successful calls
    have declared since the last clearing. One more call changes nothing but the uniforms, and
    one that goes on after a failure gives the result of one that stops, else the result without
    processing, else the source text. -/
theorem run_reaches (start : Processor) (operations : List Operation) :
    let reached := start.run operations
    reached.uniforms =
        (if operations.any Operation.isClear then .empty else start.uniforms).extend
          (((start.steps operations).rtakeWhile fun step => !step.2.isClear).flatMap
            stepUniforms) ∧
      ∀ source,
        (reached.tryProcess source).2 =
            { reached with uniforms := (reached.tryProcess source).2.uniforms } ∧
          (reached.process source).2 =
            { reached with uniforms := (reached.process source).2.uniforms } ∧
          (reached.process source).1 =
            match (reached.tryProcess source).1 with
            | .ok text => text
            | .error _ =>
              match (({ reached with enabled := false } : Processor).tryProcess source).1 with
              | .ok text => text
              | .error _ => source := by
  refine ⟨run_uniforms start operations, fun source => ⟨?_, ?_, process_fst _ source⟩⟩
  · rw [tryProcess_snd]
  · rw [process_snd, tryProcess_snd]

end Processor

end ShaderSource
