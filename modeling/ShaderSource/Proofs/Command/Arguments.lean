import Mathlib.Data.List.Basic
import ShaderSource.Command.Arguments

/-!
# Arguments that every task takes

Arguments without an option are the same for every task: they name a source
file, and nothing else. The tasks with options can have these in front of them.
-/

namespace ShaderSource

namespace Argument

/-- Arguments that are read without any options are plain, and are read alike with options. -/
theorem readAll_of_none {arguments : List String} {given : List Argument}
    (read : readAll [] arguments = .ok given) :
    ∃ texts : List String, given = texts.map plain ∧
      ∀ allowed, readAll allowed arguments = .ok given := by
  induction arguments generalizing given with
  | nil =>
    obtain rfl := Except.ok.inj read
    exact ⟨[], rfl, fun _ => rfl⟩
  | cons text rest inductionHypothesis =>
    unfold readAll at read ⊢
    cases form : ArgumentForm.ofText text with
    | endOfOptions =>
      simp only [form] at read
      obtain rfl := Except.ok.inj read
      exact ⟨rest, rfl, fun _ => rfl⟩
    | plain =>
      simp only [form] at read
      cases others : readAll [] rest with
      | error error => simp [others, before, Except.map] at read
      | ok later =>
        obtain ⟨texts, rfl, alike⟩ := inductionHypothesis others
        rw [others] at read
        obtain rfl := Except.ok.inj read
        refine ⟨text :: texts, rfl, fun allowed => ?_⟩
        dsimp only
        rw [alike allowed]
        rfl
    | long | short => simp [form, option?] at read

/-- An option without a value is read by itself. -/
theorem readAll_switch {allowed : List CommandOption} {text name : String} {option : CommandOption}
    (form : ArgumentForm.ofText text = .long name none)
    (known : option? allowed (.long name none) = some (option, none))
    (simple : option.takesValue = false) (rest : List String) :
    readAll allowed (text :: rest) = (switch option).before (readAll allowed rest) := by
  rw [readAll.eq_def]
  simp only [form, known, simple, Bool.false_eq_true, if_false]

section Plain

variable (option : CommandOption) (texts : List String)

/-- Without options no switch is on. -/
theorem isSwitchedOn_plain : isSwitchedOn option (texts.map plain) = .ok false := by
  have absent : (texts.map plain).count (switch option) = 0 := by
    simp [List.count_eq_zero]
  simp only [isSwitchedOn, absent]

/-- A switch in front of plain texts is on. -/
theorem isSwitchedOn_switch :
    isSwitchedOn option (switch option :: texts.map plain) = .ok true := by
  have once : (switch option :: texts.map plain).count (switch option) = 1 := by
    simp [List.count_eq_zero]
  simp only [isSwitchedOn, once]

/-- Without options none has a value. -/
theorem valuesOf_plain : valuesOf option (texts.map plain) = [] := by
  simp [valuesOf, valueOf?]

end Plain

end Argument

/-- What processing is asked to do without options. -/
def ProcessOptions.none : ProcessOptions := ⟨[], Option.none, [], false, false, false⟩

namespace ProcessOptions

open Argument

/-- Plain texts alone ask for processing without options. -/
theorem ofArguments_plain (texts : List String) :
    ofArguments (texts.map plain) = .ok none := by
  simp only [ofArguments, fileOf?, valuesOf_plain, isSwitchedOn_plain, List.mapM_nil]
  rfl

/-- With its switch, processing is asked to fill placeholders only. -/
theorem ofArguments_placeholdersOnly (texts : List String) :
    ofArguments (switch .placeholdersOnly :: texts.map plain) =
      .ok { none with placeholdersOnly := true } := by
  have others : ∀ option, option ≠ .placeholdersOnly →
      isSwitchedOn option (switch .placeholdersOnly :: texts.map plain) = .ok false := by
    intro option other
    have same : (switch .placeholdersOnly :: texts.map plain).count (switch option) =
        (texts.map plain).count (switch option) :=
      List.count_cons_of_ne (by simpa using other.symm)
    rw [isSwitchedOn, same]
    exact isSwitchedOn_plain option texts
  have values : ∀ option, valuesOf option (switch .placeholdersOnly :: texts.map plain) = [] :=
    fun option => valuesOf_plain option texts
  simp only [ofArguments, fileOf?, values, isSwitchedOn_switch, others .listUniforms (by decide),
    others .lenient (by decide), List.mapM_nil]
  rfl

end ProcessOptions

namespace Command

open Argument

/-- Arguments without an option, and the source file that they name. -/
structure Names (arguments : List String) (texts : List String) (name : String) : Prop where
  read : ∀ allowed, readAll allowed arguments = .ok (texts.map plain)
  input : inputOf (texts.map plain) = .ok name

variable {arguments texts : List String} {name : String}

/-- A file is checked with arguments that name it and nothing else. -/
theorem exists_names (asked : ofArguments ("check" :: arguments) = .ok ⟨.check, name⟩) :
    ∃ texts, Names arguments texts name := by
  simp only [ofArguments, ofTask] at asked
  cases read : readAll [] arguments with
  | error error => simp [read, bind, Except.bind] at asked
  | ok given =>
    obtain ⟨texts, rfl, alike⟩ := readAll_of_none read
    cases input : inputOf (texts.map plain) with
    | error error => simp [read, input, bind, Except.bind] at asked
    | ok found =>
      simp only [read, input, bind, Except.bind, pure, Except.pure, Except.ok.injEq,
        Command.mk.injEq, true_and] at asked
      exact ⟨texts, alike, asked ▸ input⟩

namespace Names

variable {allowed : List CommandOption} {task : List Argument → Except UsageError Task}
  {value : Task}

/-- Arguments that name a file ask for a task on it. -/
theorem ofTask (names : Names arguments texts name) (asks : task (texts.map plain) = .ok value) :
    ofTask allowed task arguments = .ok ⟨value, name⟩ := by
  simp only [Command.ofTask, names.read, asks, names.input, bind, Except.bind, pure, Except.pure]

/-- An option without a value in front does not change the source file. -/
theorem ofTask_switch (names : Names arguments texts name) {text : String} {option : CommandOption}
    (switches : ∀ rest, readAll allowed (text :: rest) =
      (switch option).before (readAll allowed rest))
    (asks : task (switch option :: texts.map plain) = .ok value) :
    Command.ofTask allowed task (text :: arguments) = .ok ⟨value, name⟩ := by
  have input : inputOf (switch option :: texts.map plain) = .ok name := names.input
  simp only [Command.ofTask, switches, names.read, before, Except.map, asks, input, bind,
    Except.bind, pure, Except.pure]

end Names

/-- The first arguments of commands that take nothing but a source file besides, with what they
    ask for. -/
def fronts : List (List String × Task) :=
  [(["check"], .check), (["tokens"], .tokens), (["parse"], .parse), (["dump"], .dump false),
   (["dump", "--json"], .dump true), (["process"], .process .none),
   (["process", "--no-processing"],
    .process { ProcessOptions.none with placeholdersOnly := true })]

/-- What names the file to check names it for the other commands as well. -/
theorem ofArguments_front (asked : ofArguments ("check" :: arguments) = .ok ⟨.check, name⟩) :
    ∀ entry ∈ fronts, ofArguments (entry.1 ++ arguments) = .ok ⟨entry.2, name⟩ := by
  obtain ⟨texts, names⟩ := exists_names asked
  have dump : ofArguments ("dump" :: arguments) = .ok ⟨.dump false, name⟩ := by
    apply names.ofTask
    rw [isSwitchedOn_plain]
    rfl
  have dumpJson : ofArguments ("dump" :: "--json" :: arguments) = .ok ⟨.dump true, name⟩ := by
    apply names.ofTask_switch (readAll_switch rfl rfl rfl)
    rw [isSwitchedOn_switch]
    rfl
  have process : ofArguments ("process" :: arguments) = .ok ⟨.process .none, name⟩ := by
    apply names.ofTask
    rw [ProcessOptions.ofArguments_plain]
    rfl
  have placeholdersOnly : ofArguments ("process" :: "--no-processing" :: arguments) =
      .ok ⟨.process { ProcessOptions.none with placeholdersOnly := true }, name⟩ := by
    apply names.ofTask_switch (readAll_switch rfl rfl rfl)
    rw [ProcessOptions.ofArguments_placeholdersOnly]
    rfl
  simp only [fronts, List.forall_mem_cons]
  exact ⟨asked, names.ofTask rfl, names.ofTask rfl, dump, dumpJson, process, placeholdersOnly,
    nofun⟩

end Command

end ShaderSource
