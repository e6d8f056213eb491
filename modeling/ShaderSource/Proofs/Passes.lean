import ShaderSource.Proofs.Processor

/-!
# One pass and separate passes

Processing goes through a program once: it registers uniforms in a table of its
own, gives constants their values and keeps the first failure, and only then adds
the uniforms to those of earlier programs. The same is done by separate passes
over the whole program, one that registers its uniforms in the common table and
one that gives its constants their values. A failure at any point leaves the
processor as it was.
-/

namespace ShaderSource.Processor

/-- The one walk through a program does what two passes do: one that gives its constants their
    values and one that registers its uniforms with those of earlier programs. -/
theorem processProgram_eq_passes (processor : Processor) (text : String) :
    processor.processProgram text =
      match compile text with
      | .error error => (.error (parseFailure error text), processor)
      | .ok nodes =>
        match substituteConstants nodes processor.data with
        | .error failure => (.error (constantFailure failure), processor)
        | .ok substituted =>
          (.ok (renderProgram substituted),
            { processor with uniforms := (registerUniforms nodes processor.uniforms).2 }) := by
  cases compiled : compile text with
  | error error =>
    unfold processProgram
    rw [compiled]
  | ok nodes =>
    obtain ⟨_, _, _, shaped, _⟩ := exists_of_compile compiled
    have walked := processProgram_eq processor compiled shaped
    rw [extend_registerUniforms shaped] at walked
    exact walked

/-- Processing is exchanging placeholders, reading the text as a program, giving the constants of
    the program their values and registering its uniforms, each as a pass of its own. The first
    that fails decides the failure: one of a placeholder is reported as it is, one of reading
    with the text that was read, one of a constant with the name of its declaration. -/
theorem tryProcess_eq_passes {processor : Processor} (enabled : processor.enabled = true)
    (source : String) :
    processor.tryProcess source =
      match substitutePlaceholders source processor.data processor.placeholders with
      | .error cause => (.error (.bare (.literal cause)), processor)
      | .ok text =>
        match compile text with
        | .error error =>
          (.error (.placed
            { cause := .parse error, source := some text, file := none, declaration := none,
              span := some error.span }), processor)
        | .ok nodes =>
          match substituteConstants nodes processor.data with
          | .error ⟨name, cause⟩ =>
            (.error (.placed
              { cause := .literal cause, source := none, file := none, declaration := some name,
                span := none }), processor)
          | .ok substituted =>
            (.ok (renderProgram substituted),
              { processor with uniforms := (registerUniforms nodes processor.uniforms).2 }) := by
  unfold tryProcess
  cases substitutePlaceholders source processor.data processor.placeholders with
  | error cause => rfl
  | ok text =>
    dsimp only
    rw [if_pos enabled, processProgram_eq_passes]
    cases compile text with
    | error error => rfl
    | ok nodes =>
      dsimp only
      cases substituteConstants nodes processor.data with
      | error failure => rfl
      | ok substituted => rfl

/-- Both uniforms of this program have one key, under which the processor holds a third one
    already; its constant has a value, and the initial value of its number is a placeholder. -/
theorem tryProcess_eq_passes_collision :
    ∃ processor after : Processor, processor.enabled = true ∧
      processor.uniforms.entries = [("time", ⟨"t", "int"⟩), ("size", ⟨"uSize", "vec2"⟩)] ∧
      processor.tryProcess "uniform vec2 uTime; const int n; int m = $two$; uniform vec3 time;" =
        (.ok "uniform vec2 uTime;\nconst int n = 2;\nint m = 2;\nuniform vec3 time;", after) ∧
      after.uniforms.entries = [("size", ⟨"uSize", "vec2"⟩), ("time", ⟨"time", "vec3"⟩)] := by
  let two : HostValue := .scalar (.ofDecimal false 2 0)
  let processor : Processor :=
    ⟨true, .ofList [("two", two), ("n", two)], .ofList [("two", .int)],
      .ofList [("time", ⟨"t", "int"⟩), ("size", ⟨"uSize", "vec2"⟩)]⟩
  let nodes : List Node :=
    [.declaration (some .uniform) "vec2" "uTime" none, .declaration (some .const) "int" "n" none,
      .declaration none "int" "m" (some (.int "2")),
      .declaration (some .uniform) "vec3" "time" none]
  have exchanged : substitutePlaceholders
      "uniform vec2 uTime; const int n; int m = $two$; uniform vec3 time;"
      processor.data processor.placeholders =
        .ok "uniform vec2 uTime; const int n; int m = 2; uniform vec3 time;" := by
    decide +kernel
  have compiled : compile "uniform vec2 uTime; const int n; int m = 2; uniform vec3 time;" =
      .ok nodes := by
    decide +kernel
  have valued : substituteConstants nodes processor.data =
      .ok [.declaration (some .uniform) "vec2" "uTime" none,
        .declaration (some .const) "int" "n" (some (.chunk "2")),
        .declaration none "int" "m" (some (.int "2")),
        .declaration (some .uniform) "vec3" "time" none] := by
    decide +kernel
  have enabled : processor.enabled = true := rfl
  have passes := tryProcess_eq_passes enabled
    "uniform vec2 uTime; const int n; int m = $two$; uniform vec3 time;"
  simp only [exchanged, compiled, valued] at passes
  refine ⟨processor, _, enabled, rfl, passes, ?_⟩
  decide +kernel

end ShaderSource.Processor
