import ShaderSource.Proofs.Command.Agreement
import ShaderSource.Proofs.Command.Listing
import ShaderSource.Proofs.Command.Preparation

/-!
# The command that processes a file

Processing a file is one call of a processor with the values and types that the
arguments give. What the command writes and its status are the result of the call:
its text and, if they are asked for, the uniforms that the processor holds
afterwards; or its failure and nothing else. A lenient command never fails at this
point, since its call goes on after a failure.

It records the failure, though. So where the log lets errors pass, this record stands
before the uniforms, and the uniforms are not all that is written apart from the
output.
-/

namespace ShaderSource

/-- The call that processes a source text. -/
def ProcessOptions.call (options : ProcessOptions) (source : String) : Operation :=
  if options.lenient then .process source else .tryProcess source

/-- What the uniforms of a processor add to the report of a success. -/
def ProcessOptions.listed (options : ProcessOptions) (uniforms : UniformTable) : String :=
  if options.listUniforms then Command.uniformLines uniforms else ""

/-- A record that passes is written on a line of its own. -/
theorem LogWriter.write_singleton {log : LogWriter} {record : LogRecord}
    (passed : log.passes record = true) : log.write [record] = log.form record ++ "\n" := by
  simp [write, passed]

/-- Without records the report is all that is written apart from the output. -/
theorem Outcome.besides_eq_report {outcome : Outcome} (unrecorded : outcome.records = [])
    (log : LogWriter) : outcome.besides log = outcome.report := by
  rw [besides, unrecorded]
  exact String.empty_append

namespace Command

variable {processor other : Processor} {options : ProcessOptions} {name source : String}

section Outcomes

/-- A lenient command succeeds with what its call gives, and records what its call does. -/
theorem processWith_lenient (lenient : options.lenient = true) :
    processWith processor options name source =
      ⟨(processor.process source).1 ++ "\n",
        options.listed (processor.process source).2.uniforms, 0,
        processor.processRecords source⟩ := by
  rw [processWith, if_pos lenient]
  rfl

/-- A success of the call is the one of the command. -/
theorem processWith_ok (strict : options.lenient = false) {text : String}
    (processed : (processor.tryProcess source).1 = .ok text) :
    processWith processor options name source =
      .success (Outcome.printed text)
        (options.listed (processor.tryProcess source).2.uniforms) := by
  rw [processWith, if_neg (Bool.eq_false_iff.mp strict), ← Prod.eta (processor.tryProcess source),
    processed]
  rfl

/-- The failure of a call is the one of the command, with the file that it is in. -/
theorem processWith_error (strict : options.lenient = false) {error : ShaderError}
    (failed : (processor.tryProcess source).1 = .error error) :
    processWith processor options name source =
      .failure "" (.shader (.placed ((Diagnostic.ofError error).withFile name))) := by
  rw [processWith, if_neg (Bool.eq_false_iff.mp strict), ← Prod.eta (processor.tryProcess source),
    failed]

/-- Alike processors give the same outcome. -/
theorem processWith_congr (alike : processor.Alike other) :
    processWith processor options name source = processWith other options name source := by
  have uniforms := (alike.tryProcess_snd source).uniforms
  have records : processor.processRecords source = other.processRecords source := by
    rw [Processor.processRecords, Processor.processRecords, alike.tryProcess_fst]
  cases lenient : options.lenient with
  | true =>
    rw [processWith_lenient lenient, processWith_lenient lenient, alike.process_fst,
      Processor.process_snd, Processor.process_snd, uniforms, records]
  | false =>
    have results := alike.tryProcess_fst source
    cases result : (other.tryProcess source).1 with
    | ok text =>
      rw [processWith_ok lenient result, processWith_ok lenient (results.trans result), uniforms]
    | error error =>
      rw [processWith_error lenient result, processWith_error lenient (results.trans result)]

/-- The uniforms after the call do not depend on whether it goes on after a failure. -/
theorem uniforms_call (processor : Processor) (options : ProcessOptions) (source : String) :
    (processor.perform (options.call source)).uniforms =
      (processor.tryProcess source).2.uniforms := by
  unfold ProcessOptions.call
  split
  · exact congrArg Processor.uniforms (Processor.process_snd processor source)
  · rfl

/-- A success reports nothing but the uniforms. -/
theorem report_processWith
    (succeeded : (processWith processor options name source).status = 0) :
    (processWith processor options name source).report =
      options.listed (processor.perform (options.call source)).uniforms := by
  rw [uniforms_call]
  cases lenient : options.lenient with
  | true =>
    rw [processWith_lenient lenient, Processor.process_snd]
  | false =>
    cases result : (processor.tryProcess source).1 with
    | ok text =>
      rw [processWith_ok lenient result]
      rfl
    | error error => simp [processWith_error lenient result, Outcome.failure] at succeeded

/-- Only a lenient command leaves records, those of its call. -/
theorem records_processWith :
    (processWith processor options name source).records =
      if options.lenient then processor.processRecords source else [] := by
  cases lenient : options.lenient with
  | true =>
    rw [processWith_lenient lenient]
    rfl
  | false =>
    cases result : (processor.tryProcess source).1 with
    | ok text =>
      rw [processWith_ok lenient result]
      rfl
    | error error =>
      rw [processWith_error lenient result]
      rfl

end Outcomes

/-- What comes of processing a source file by one call of a processor. -/
structure Processed (options : ProcessOptions) (processor : Processor) (name source : String)
    (outcome : Outcome) : Prop where
  /-- A command that is not lenient succeeds on a success of its call only. -/
  status : options.lenient = false →
    (outcome.status = 0 ↔ ∃ text, (processor.tryProcess source).1 = .ok text)
  output : options.lenient = false → ∀ text, (processor.tryProcess source).1 = .ok text →
    outcome.output = text ++ "\n"
  /-- Nothing but the failure is reported, whether uniforms are asked for or not. -/
  failure : options.lenient = false → ∀ error, (processor.tryProcess source).1 = .error error →
    outcome.status = 1 ∧ outcome.output = "" ∧
      ∀ log, outcome.besides log = ((Diagnostic.ofError error).withFile name).render ++ "\n"
  lenient : options.lenient = true →
    outcome.status = 0 ∧ outcome.output = (processor.process source).1 ++ "\n"
  /-- The failure that a lenient command goes on after is recorded. -/
  recorded : options.lenient = true → ∀ error, (processor.tryProcess source).1 = .error error →
    outcome.records =
      [{ level := .error
         target := "qshade"
         message := "shader processing failed, using the source as is\n" ++ error.render }]
  /-- Nothing else is recorded. -/
  unrecorded : options.lenient = false ∨ (∃ text, (processor.tryProcess source).1 = .ok text) →
    outcome.records = []
  /-- If uniforms are asked for, a success lists those that the processor holds afterwards. The
      list stands behind what the log writes of the records, and nothing follows it. -/
  uniforms : options.listUniforms = true → outcome.status = 0 →
    ∃ uniforms listed,
      Listing (processor.perform (options.call source)).uniforms uniforms listed ∧
        ∀ log, outcome.besides log = log.write outcome.records ++ listed
  silent : options.listUniforms = false → outcome.status = 0 →
    ∀ log, outcome.besides log = log.write outcome.records

/-- A command with a processor that holds no unsound names gives what its call gives. -/
theorem processWith_processed (named : UniformTable.Named processor.uniforms)
    (options : ProcessOptions) (name source : String) :
    Processed options processor name source (processWith processor options name source) where
  status strict := by
    cases result : (processor.tryProcess source).1 with
    | ok text => simp [processWith_ok strict result, Outcome.success]
    | error error => simp [processWith_error strict result, Outcome.failure]
  output strict text processed := by
    rw [processWith_ok strict processed]
    rfl
  failure strict error failed := by
    rw [processWith_error strict failed]
    exact ⟨rfl, rfl, Outcome.besides_eq_report rfl⟩
  lenient lenient := by
    rw [processWith_lenient lenient]
    exact ⟨rfl, rfl⟩
  recorded lenient error failed := by
    rw [records_processWith, if_pos lenient, Processor.processRecords, failed]
    rfl
  unrecorded settled := by
    rw [records_processWith]
    rcases settled with strict | ⟨text, processed⟩
    · rw [if_neg (Bool.eq_false_iff.mp strict)]
    · rw [Processor.processRecords, processed, ite_self]
  uniforms asked succeeded := by
    have report := report_processWith succeeded
    rw [ProcessOptions.listed, if_pos asked] at report
    refine ⟨_, _, listing_uniformLines ?_, fun log => congrArg _ report⟩
    rw [uniforms_call]
    exact Processor.named_tryProcess named source
  silent unasked succeeded log := by
    have report := report_processWith succeeded
    rw [ProcessOptions.listed, if_neg (Bool.eq_false_iff.mp unasked)] at report
    rw [Outcome.besides, report, String.append_empty]

/-- Processing a file is one call of a processor that is prepared for it. -/
theorem runArguments_of_prepares {files : Files} {arguments : List String} {stored : DataTable}
    {order : TableOrder LiteralType} (prepared : options.Prepares stored order processor)
    (asked : ofArguments ("process" :: arguments) = .ok ⟨.process options, name⟩)
    (held : files name = .ok source) (stores : options.Stores files stored) :
    Processed options processor name source
      (runArguments files ("process" :: arguments) order) := by
  have named : UniformTable.Named processor.uniforms := by
    rw [prepared.fresh]
    exact UniformTable.named_empty
  have run : runArguments files ("process" :: arguments) order =
      processWith processor options name source := by
    rw [processWith_congr (prepared.alike (options.prepares_processorOf stored order)),
      runArguments, asked]
    dsimp only
    rw [run_eq _ order held, runTask, runProcess, stores.readData_eq]
  rw [run]
  exact processWith_processed named options name source

/-- Processing a file is one call of any processor that the arguments prepare in the order in
    which the command goes through the placeholders, and every arrangement of them comes from some
    order. The arguments give the options in their order, and the last one of several types for a
    placeholder counts. -/
theorem runArguments_processed {files : Files} {arguments : List String} {stored : DataTable}
    (asked : ofArguments ("process" :: arguments) = .ok ⟨.process options, name⟩)
    (held : files name = .ok source) (stores : options.Stores files stored) :
    (∃ given, Argument.readAll CommandOption.ofProcessing arguments = .ok given ∧
      options.Given given ∧ given.filterMap Argument.text? = [name]) ∧
    (∀ placeholder, (Table.ofList options.placeholders).find? placeholder =
      options.placeholders.reverse.lookup placeholder) ∧
    (∀ placeholders : PlaceholderTable,
      placeholders.entries.Perm (Table.ofList options.placeholders).entries →
        ∃ order : TableOrder LiteralType,
          order.arrange (.ofList options.placeholders) = placeholders) ∧
    ∀ order, (∃ processor, options.Prepares stored order processor) ∧
      ∀ processor, options.Prepares stored order processor →
        Processed options processor name source
          (runArguments files ("process" :: arguments) order) := by
  refine ⟨ProcessOptions.exists_given asked, fun placeholder => ?_,
    fun _ arranged => TableOrder.exists_arrange arranged, fun order => ?_⟩
  · exact (Table.empty.find?_extend_lookup _ _).trans Option.or_none
  · exact ⟨⟨_, options.prepares_processorOf stored order⟩,
      fun processor prepared => runArguments_of_prepares prepared asked held stores⟩

/-- A value in the file is defined again twice, and the type of its placeholder is given twice; the
    constant has its value from the file. -/
theorem runArguments_processed_overridden :
    ∃ (files : Files) (arguments : List String) (options : ProcessOptions) (source : String)
        (stored : DataTable) (order : TableOrder LiteralType),
      ofArguments ("process" :: arguments) = .ok ⟨.process options, "glow.frag"⟩ ∧
        files "glow.frag" = .ok source ∧ options.Stores files stored ∧
          (∃ processor, options.Prepares stored order processor) ∧
            (∀ processor, options.Prepares stored order processor →
              Processed options processor "glow.frag" source
                (runArguments files ("process" :: arguments) order)) ∧
              (runArguments files ("process" :: arguments) order).status = 0 ∧
                (runArguments files ("process" :: arguments) order).output =
                  "uniform vec2 uTime;\nconst int n = 1;\nint m = 2;\n" := by
  let source : String := "uniform vec2 uTime; const int n; int m = $two$;"
  let values : String := "\x7b \"two\": 5, \"n\": 1 \x7d"
  let files : Files := .ofList [("glow.frag", .ok source), ("values.json", .ok values)]
  let arguments : List String :=
    ["-Dtwo=3", "--data", "values.json", "--define=two=2", "--const", "two=float", "glow.frag",
      "--uniforms", "--const=two=int"]
  let options : ProcessOptions :=
    { definitions := [("two", .scalar (.ofDecimal false 3 0)), ("two", .scalar (.ofDecimal false 2 0))]
      dataFile := some "values.json"
      placeholders := [("two", .float), ("two", .int)]
      placeholdersOnly := false
      listUniforms := true
      lenient := false }
  have asked : ofArguments ("process" :: arguments) = .ok ⟨.process options, "glow.frag"⟩ := by
    decide +kernel
  have held : files "glow.frag" = .ok source := by decide +kernel
  have heldValues : files "values.json" = .ok values := by decide +kernel
  have valid : (DataFile.read values).isOk = true := by decide +kernel
  cases read : DataFile.read values with
  | error error => simp [read, Except.isOk, Except.toBool] at valid
  | ok stored =>
    have stores : options.Stores files stored := .file rfl heldValues read
    obtain ⟨_, _, _, all⟩ := runArguments_processed asked held stores
    obtain ⟨some, each⟩ := all .asAdded
    have ran : ((runArguments files ("process" :: arguments)).status,
        (runArguments files ("process" :: arguments)).output) =
          (0, "uniform vec2 uTime;\nconst int n = 1;\nint m = 2;\n") := by
      decide +kernel
    exact ⟨files, arguments, options, source, stored, .asAdded, asked, held, stores, some, each,
      Prod.mk.inj ran⟩

/-- The uniforms are not all that is written apart from the output: a lenient command that is given
    no program succeeds and has no uniforms, but its failure is written wherever errors pass the
    log, and they do if the log is not told otherwise. -/
theorem runArguments_processed_logged :
    ∃ (files : Files) (arguments : List String) (options : ProcessOptions) (source : String),
      ofArguments ("process" :: arguments) = .ok ⟨.process options, "a.frag"⟩ ∧
        files "a.frag" = .ok source ∧ options.Stores files .empty ∧
          options.listUniforms = true ∧
            (∀ record : LogRecord, record.level = .error →
              (LogWriter.ofSetting none).passes record = true) ∧
            ∀ order, (runArguments files ("process" :: arguments) order).status = 0 ∧
              ∀ processor, options.Prepares .empty order processor →
                ∀ log : LogWriter, (∀ record, record.level = .error → log.passes record = true) →
                  ¬ ∃ uniforms, Listing (processor.perform (options.call source)).uniforms uniforms
                    ((runArguments files ("process" :: arguments) order).besides log) := by
  let files : Files := .ofList [("a.frag", .ok "@")]
  let arguments : List String := ["--lenient", "--uniforms", "a.frag"]
  let options : ProcessOptions :=
    { ProcessOptions.none with listUniforms := true, lenient := true }
  have asked : ofArguments ("process" :: arguments) = .ok ⟨.process options, "a.frag"⟩ := by
    decide +kernel
  have held : files "a.frag" = .ok "@" := by decide +kernel
  have stores : options.Stores files .empty := .nowhere rfl
  have invalid : (compile "@").isOk = false := by decide +kernel
  have fresh (order : TableOrder LiteralType) : options.Prepares .empty order .new :=
    ⟨rfl, fun _ => rfl, order.arrange_empty.symm, rfl⟩
  refine ⟨files, arguments, options, "@", asked, held, stores, rfl, ?_, fun order => ⟨?_, ?_⟩⟩
  · rintro ⟨_, _, _⟩ rfl
    rfl
  · exact ((runArguments_of_prepares (fresh order) asked held stores).lenient rfl).1
  · rintro processor prepared log passed ⟨uniforms, listing⟩
    obtain ⟨error, failed⟩ : ∃ error, (processor.tryProcess "@").1 = .error error := by
      rw [(prepared.alike (fresh order)).tryProcess_fst, Processor.tryProcess_new]
      cases compiled : compile "@" with
      | ok nodes => simp [compiled, Except.isOk, Except.toBool] at invalid
      | error error => exact ⟨_, rfl⟩
    have unchanged : (processor.perform (options.call "@")).uniforms = .empty := by
      rw [uniforms_call, Processor.tryProcess_snd_of_error failed, prepared.fresh]
    have written := (unchanged ▸ listing).eq_empty
    have processed := runArguments_of_prepares prepared asked held stores
    rw [Outcome.besides, processed.recorded rfl error failed,
      LogWriter.write_singleton (passed _ rfl), String.append_assoc] at written
    simpa using congrArg String.length written

end Command

end ShaderSource
