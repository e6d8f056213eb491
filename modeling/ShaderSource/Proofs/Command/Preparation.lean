import Mathlib.Data.List.Forall2
import ShaderSource.Command.Run
import ShaderSource.Proofs.Session

/-!
# Preparing a processor

The options of processing hold what the arguments give, in the order of the
arguments. They prepare a processor: its values are those of a file, with the
definitions in place of them, and it has no uniforms yet. The types of its
placeholders are those that the arguments give, in the order in which the command
goes through them.

A processor asks for values by their names only. So it makes no difference how
its values are put together, as long as each name has the same value. The order of
the placeholders does make a difference.
-/

namespace ShaderSource

section Results

variable {ε α β : Type}

/-- A step that succeeds is taken from a success. -/
theorem exists_of_bind_ok {result : Except ε α} {next : α → Except ε β} {value : β}
    (succeeded : (result >>= next) = .ok value) :
    ∃ given, result = .ok given ∧ next given = .ok value := by
  cases result with
  | error error => cases succeeded
  | ok given => exact ⟨given, rfl, succeeded⟩

/-- If all items are read, each value is what its item is read as. -/
theorem forall₂_of_mapM_ok {read : α → Except ε β} {items : List α} {values : List β}
    (succeeded : items.mapM read = .ok values) :
    List.Forall₂ (fun item value => read item = .ok value) items values := by
  induction items generalizing values with
  | nil =>
    obtain rfl := Except.ok.inj succeeded
    exact .nil
  | cons item items inductionHypothesis =>
    rw [List.mapM_cons] at succeeded
    obtain ⟨value, known, others⟩ := exists_of_bind_ok succeeded
    obtain ⟨later, knownLater, same⟩ := exists_of_bind_ok others
    obtain rfl := Except.ok.inj same
    exact .cons known (inductionHypothesis knownLater)

end Results

namespace Argument

variable {option : CommandOption} {arguments : List Argument}

/-- A switch that is on is among the arguments, and one that is off is not. -/
theorem switch_mem_of_isSwitchedOn {on : Bool}
    (known : isSwitchedOn option arguments = .ok on) : on = true ↔ switch option ∈ arguments := by
  rw [← List.count_pos_iff]
  unfold isSwitchedOn at known
  split at known
  case h_1 absent => simp [← Except.ok.inj known, absent]
  case h_2 once => simp [← Except.ok.inj known, once]
  case h_3 => cases known

/-- An option that names a file is given once at the most. -/
theorem valuesOf_of_fileOf? {file : Option String} (known : fileOf? option arguments = .ok file) :
    valuesOf option arguments = file.toList := by
  unfold fileOf? at known
  split at known
  case h_1 absent => rw [absent, ← Except.ok.inj known, Option.toList_none]
  case h_2 name once =>
    split at known
    · cases known
    · rw [once, ← Except.ok.inj known, Option.toList_some]
  case h_3 => cases known

/-- The input is the only argument that is not an option. -/
theorem texts_of_inputOf {name : String} (known : inputOf arguments = .ok name) :
    arguments.filterMap text? = [name] := by
  unfold inputOf at known
  split at known
  case h_1 => cases known
  case h_2 once =>
    split at known
    · cases known
    · rw [once, Except.ok.inj known]
  case h_3 => cases known

end Argument

namespace ProcessOptions

open Argument

/-- Options hold what some arguments give: each definition and each type in its place, at most
    one file of values, and the switches that are among the arguments. -/
structure Given (options : ProcessOptions) (arguments : List Argument) : Prop where
  definitions : List.Forall₂ (fun text entry => readDefinition HostValue.ofText text = .ok entry)
    (valuesOf .define arguments) options.definitions
  dataFile : valuesOf .data arguments = options.dataFile.toList
  placeholders : List.Forall₂ (fun text entry => readDefinition LiteralType.ofName text = .ok entry)
    (valuesOf .placeholder arguments) options.placeholders
  placeholdersOnly : options.placeholdersOnly = true ↔ switch .placeholdersOnly ∈ arguments
  listUniforms : options.listUniforms = true ↔ switch .listUniforms ∈ arguments
  lenient : options.lenient = true ↔ switch .lenient ∈ arguments

/-- The options that are read hold what the arguments give. -/
theorem given_of_ofArguments {options : ProcessOptions} {arguments : List Argument}
    (read : ofArguments arguments = .ok options) : options.Given arguments := by
  obtain ⟨definitions, defined, read⟩ := exists_of_bind_ok read
  obtain ⟨dataFile, named, read⟩ := exists_of_bind_ok read
  obtain ⟨placeholders, typed, read⟩ := exists_of_bind_ok read
  obtain ⟨placeholdersOnly, only, read⟩ := exists_of_bind_ok read
  obtain ⟨listUniforms, listed, read⟩ := exists_of_bind_ok read
  obtain ⟨lenient, goesOn, read⟩ := exists_of_bind_ok read
  obtain rfl := Except.ok.inj read
  exact ⟨forall₂_of_mapM_ok defined, valuesOf_of_fileOf? named, forall₂_of_mapM_ok typed,
    switch_mem_of_isSwitchedOn only, switch_mem_of_isSwitchedOn listed,
    switch_mem_of_isSwitchedOn goesOn⟩

/-- The arguments of processing give its options, and the one text among them is the source file. -/
theorem exists_given {arguments : List String} {options : ProcessOptions} {name : String}
    (asked : Command.ofArguments ("process" :: arguments) = .ok ⟨.process options, name⟩) :
    ∃ given, readAll CommandOption.ofProcessing arguments = .ok given ∧ options.Given given ∧
      given.filterMap text? = [name] := by
  obtain ⟨given, read, asked⟩ := exists_of_bind_ok asked
  obtain ⟨task, found, asked⟩ := exists_of_bind_ok asked
  obtain ⟨input, named, asked⟩ := exists_of_bind_ok asked
  obtain ⟨rfl, rfl⟩ := Command.mk.inj (Except.ok.inj asked)
  refine ⟨given, read, ?_, texts_of_inputOf named⟩
  cases known : ofArguments given with
  | error error => simp [known, Except.map] at found
  | ok other =>
    simp only [known, Except.map, Except.ok.injEq, Task.process.injEq] at found
    exact given_of_ofArguments (found ▸ known)

/-- The values in the file that options name; none if they name no file. -/
inductive Stores (options : ProcessOptions) (files : Files) : DataTable → Prop
  | nowhere (unnamed : options.dataFile = Option.none) : options.Stores files .empty
  | file {name text : String} {stored : DataTable} (named : options.dataFile = some name)
      (held : files name = .ok text) (read : DataFile.read text = .ok stored) :
      options.Stores files stored

/-- A fresh processor with what options give and a file stores. Of several definitions of one
    name the last one counts, and it takes the place of a value in the file. The placeholders are
    gone through in some order. -/
structure Prepares (options : ProcessOptions) (stored : DataTable)
    (order : TableOrder LiteralType) (processor : Processor) : Prop where
  enabled : processor.enabled = !options.placeholdersOnly
  data : ∀ name, processor.data.find? name =
    (options.definitions.reverse.lookup name).or (stored.find? name)
  placeholders : processor.placeholders = order.arrange (.ofList options.placeholders)
  fresh : processor.uniforms = .empty

variable {options : ProcessOptions} {files : Files} {stored : DataTable}

/-- The values of a run are those of the file with the definitions in place of them. -/
theorem Stores.readData_eq (stores : options.Stores files stored) :
    Command.readData files options = .ok (stored.extend options.definitions) := by
  cases stores with
  | nowhere unnamed =>
    rw [Command.readData, unnamed]
    rfl
  | @file name text stored named held read =>
    have found : Command.readFile files name = .ok text := by
      rw [Command.readFile, held, Except.mapError]
    rw [Command.readData, named]
    dsimp only
    rw [found]
    dsimp only [bind, Except.bind]
    rw [read]
    rfl

/-- The processor of a command is prepared. -/
theorem prepares_processorOf (options : ProcessOptions) (stored : DataTable)
    (order : TableOrder LiteralType) :
    options.Prepares stored order
      (Command.processorOf options (stored.extend options.definitions) order) where
  enabled := rfl
  data := stored.find?_extend_lookup options.definitions
  placeholders := rfl
  fresh := rfl

end ProcessOptions

section Lookups

variable {data other : DataTable} (same : ∀ name, data.find? name = other.find? name)

include same

/-- Tables that give each name one value fill placeholders alike. -/
theorem substitutePlaceholders_congr (source : String) (types : PlaceholderTable) :
    substitutePlaceholders source data types = substitutePlaceholders source other types := by
  have each : substitutePlaceholder data = substitutePlaceholder other := by
    funext name ty chars
    rw [substitutePlaceholder, substitutePlaceholder, same]
  rw [substitutePlaceholders, substitutePlaceholders, substituteInOrder, substituteInOrder, each]

/-- Tables that give each name one value fill declarations alike. -/
theorem substituteConstants_congr (nodes : List Node) :
    substituteConstants nodes data = substituteConstants nodes other := by
  have literal (ty name : String) : constantLiteral ty name data = constantLiteral ty name other := by
    rw [constantLiteral, constantLiteral, same]
  have each (node : Node) : substituteConstant node data = substituteConstant node other := by
    unfold substituteConstant
    split
    · rw [literal]
    · rfl
  have visitor : constantVisitor data = constantVisitor other := by
    funext node
    rw [constantVisitor, constantVisitor, each]
  rw [substituteConstants, substituteConstants, visitor]

end Lookups

namespace Processor

/-- Two processors in which each name has the same value. -/
structure Alike (left right : Processor) : Prop where
  enabled : left.enabled = right.enabled
  data : ∀ name, left.data.find? name = right.data.find? name
  placeholders : left.placeholders = right.placeholders
  uniforms : left.uniforms = right.uniforms

namespace Alike

variable {left right : Processor} (alike : left.Alike right) (source : String)

include alike

/-- Alike processors give the same results. -/
theorem tryProcess_fst : (left.tryProcess source).1 = (right.tryProcess source).1 := by
  unfold tryProcess
  rw [substitutePlaceholders_congr alike.data, alike.placeholders]
  cases substitutePlaceholders source right.data right.placeholders with
  | error error => rfl
  | ok text =>
    dsimp only
    rw [alike.enabled, processProgram_eq_passes, processProgram_eq_passes]
    cases right.enabled with
    | false => rfl
    | true =>
      cases compile text with
      | error error => rfl
      | ok nodes =>
        dsimp only
        rw [substituteConstants_congr alike.data]
        cases substituteConstants nodes right.data <;> rfl

/-- Alike processors stay alike. -/
theorem tryProcess_snd : (left.tryProcess source).2.Alike (right.tryProcess source).2 := by
  have exchanged := substitutePlaceholders_congr alike.data source right.placeholders
  rw [Processor.tryProcess_snd, Processor.tryProcess_snd]
  refine ⟨alike.enabled, alike.data, alike.placeholders, ?_⟩
  simp only [callUniforms, sourceUniforms, alike.enabled, alike.tryProcess_fst, alike.uniforms,
    exchanged, alike.placeholders]

/-- Alike processors have one result for a source. -/
theorem process_fst : (left.process source).1 = (right.process source).1 := by
  have disabled : ({ left with enabled := false } : Processor).Alike
      { right with enabled := false } :=
    ⟨rfl, alike.data, alike.placeholders, alike.uniforms⟩
  rw [Processor.process_fst, Processor.process_fst, alike.tryProcess_fst,
    disabled.tryProcess_fst]

end Alike

end Processor

/-- All processors that options prepare in one order are alike. -/
theorem ProcessOptions.Prepares.alike {options : ProcessOptions} {stored : DataTable}
    {order : TableOrder LiteralType} {processor other : Processor}
    (prepared : options.Prepares stored order processor)
    (prepared' : options.Prepares stored order other) : processor.Alike other where
  enabled := prepared.enabled.trans prepared'.enabled.symm
  data name := (prepared.data name).trans (prepared'.data name).symm
  placeholders := prepared.placeholders.trans prepared'.placeholders.symm
  uniforms := prepared.fresh.trans prepared'.fresh.symm

end ShaderSource
