import ShaderSource.Command.Run
import ShaderSource.Proofs.Command.Arguments
import ShaderSource.Proofs.Passes
import ShaderSource.Proofs.Session
import ShaderSource.Proofs.Token.Partition

/-!
# The commands agree

Several commands read the program of a source file, each in its own way: some
compile the text at once, one lists its tokens first and compiles only what is
no list of tokens, and one leaves it to a processor. They accept the same files
and report the same failure on any other file. What a program is written out as
is accepted as well, and is written out alike.

None of this depends on the order in which tables are gone through, since none of
these commands has a placeholder to exchange.
-/

namespace ShaderSource

/-- A program is compiled from its printed text with a line feed behind it. -/
theorem ShapedProgram.compile_printed_line {nodes : List Node} (shaped : ShapedProgram nodes)
    (nested : NestedProgram deepestLevel nodes) :
    compile (renderProgram nodes ++ "\n") = .ok nodes := by
  have line : Typeset (renderProgram nodes ++ "\n").toList (programPieces nodes) := by
    rw [String.toList_append, ← List.append_nil (programPieces nodes)]
    exact shaped.typeset.append (.blank (.inr rfl) .done) (begins_cons (by decide) (by decide))
  obtain ⟨complete, shown⟩ := line.ofChars 0
  have whole := Lexed.tokens?_of_remainder complete
  exact Grammar.compile_eq_ok_iff.mpr ⟨_, whole, shown, shaped, nested⟩

/-- A processor without values and types reads a text and writes it out again. -/
theorem Processor.tryProcess_new (source : String) :
    new.tryProcess source =
      match compile source with
      | .error error => (.error (parseFailure error source), new)
      | .ok nodes =>
        (.ok (renderProgram nodes),
          { new with uniforms := (registerUniforms nodes .empty).2 }) := by
  unfold tryProcess
  rw [new, substitutePlaceholders_empty]
  dsimp only
  rw [if_pos rfl, processProgram_eq_passes]
  cases compiled : compile source with
  | error error => rfl
  | ok nodes =>
    obtain ⟨_, _, _, shaped, _⟩ := exists_of_compile compiled
    have settled : substituteConstants nodes .empty = .ok nodes :=
      substituteConstants_settled shaped fun node _ => substituteConstant_empty node
    simp only [settled]

/-- A text that is not read completely is no program. -/
theorem isComplete_of_compile {source : String} {nodes : List Node}
    (compiled : compile source = .ok nodes) : (tokenize source).isComplete = true := by
  obtain ⟨_, complete, _⟩ := exists_of_compile compiled
  exact beq_iff_eq.mpr (Lexed.tokens?_eq_ok_iff.mp complete).1

/-- Options that give neither values nor types. -/
structure ProcessOptions.Valueless (options : ProcessOptions) : Prop where
  definitions : options.definitions = []
  dataFile : options.dataFile = Option.none
  placeholders : options.placeholders = []

/-- Whether a task is to read a program and show it in some way. -/
def Task.showsProgram : Task → Bool
  | .check | .parse | .dump _ => true
  | .tokens | .process _ => false

namespace Command

variable {files : Files} {name source : String}

section Lines

/-- The word for each kind of token. -/
def tokenWords : List (TokenKind × String) :=
  [(.identifier, "identifier"), (.integer, "integer"), (.float, "float"), (.bracket, "bracket"),
   (.operator, "operator"), (.equality, "equality"), (.boolop, "boolop"), (.marker, "marker"),
   (.assign, "assign"), (.crement, "crement"), (.string, "string")]

/-- A column is five characters wide, or as wide as the number in it if this one is wider. -/
structure Column (value : Nat) (text : String) : Prop where
  width : text.length = max 5 (Nat.toDigits 10 value).length

/-- A number in a column with blanks in front of it. -/
structure Column.Right (value : Nat) (text : String) : Prop extends Column value text where
  shown : ∃ blanks, text.toList = List.replicate blanks ' ' ++ Nat.toDigits 10 value

/-- A number in a column with blanks behind it. -/
structure Column.Left (value : Nat) (text : String) : Prop extends Column value text where
  shown : ∃ blanks, text.toList = Nat.toDigits 10 value ++ List.replicate blanks ' '

/-- A line that shows a token: both ends of its span in their columns, then the word for its kind
    and its text. -/
def ShowsToken (token : Token) (line : String) : Prop :=
  ∃ start stop word, Column.Right token.span.start start ∧ Column.Left token.span.stop stop ∧
    (token.kind, word) ∈ tokenWords ∧
      line = start ++ ".." ++ stop ++ " " ++ word ++ "<" ++ token.text ++ ">\n"

/-- A character that is pushed some times stands at the end as often. -/
theorem toList_pushn (text : String) (char : Char) (count : Nat) :
    (text.pushn char count).toList = text.toList ++ List.replicate count char := by
  unfold String.pushn
  induction count with
  | zero => simp [Nat.repeat]
  | succ count inductionHypothesis =>
    rw [Nat.repeat, String.toList_push, inductionHypothesis, List.append_assoc,
      List.replicate_succ']

/-- A number that is pushed to the right has blanks in front of it. -/
theorem atRight_right (value : Nat) : Column.Right value (atRight 5 value) := by
  have shown : (atRight 5 value).toList =
      List.replicate (5 - (Nat.toDigits 10 value).length) ' ' ++ Nat.toDigits 10 value := by
    simp [atRight, toList_pushn, ← String.length_toList]
  refine ⟨⟨?_⟩, _, shown⟩
  rw [← String.length_toList, shown, List.length_append, List.length_replicate]
  omega

/-- A number that is pushed to the left has blanks behind it. -/
theorem atLeft_left (value : Nat) : Column.Left value (atLeft 5 value) := by
  have shown : (atLeft 5 value).toList =
      Nat.toDigits 10 value ++ List.replicate (5 - (Nat.toDigits 10 value).length) ' ' := by
    simp [atLeft, toList_pushn, ← String.length_toList]
  refine ⟨⟨?_⟩, _, shown⟩
  rw [← String.length_toList, shown, List.length_append, List.length_replicate]
  omega

/-- Every kind has its word. -/
theorem name_mem_tokenWords (kind : TokenKind) : (kind, kind.name) ∈ tokenWords := by
  cases kind <;> decide

/-- The line that is printed for a token shows it. -/
theorem tokenLine_shows (token : Token) : ShowsToken token (Outcome.printed (tokenLine token)) := by
  refine ⟨_, _, _, atRight_right _, atLeft_left _, name_mem_tokenWords token.kind, ?_⟩
  simp only [Outcome.printed, tokenLine, Token.display, String.append_assoc]
  rfl

/-- Each token of a list has a line of its own. -/
theorem forall₂_tokenLine (tokens : List Token) :
    List.Forall₂ ShowsToken tokens (tokens.map fun token => Outcome.printed (tokenLine token)) := by
  rw [List.forall₂_map_right_iff, List.forall₂_same]
  exact fun token _ => tokenLine_shows token

end Lines

/-- A command is run on the text of its source file. -/
theorem run_eq (task : Task) (order : TableOrder LiteralType) (held : files name = .ok source) :
    run files ⟨task, name⟩ order = runTask files task name source order := by
  simp only [run, readFile, held, Except.mapError]

/-- What a command reports of a source file that is no program. -/
def rejection (name source : String) (error : ParseError) : CommandError :=
  .shader (.placed (((Diagnostic.ofCause (.parse error)).withSource source).withFile name))

/-- A command on the nodes of a file prints a text of them, or the report on the source. -/
theorem ofResult_compileFile (name source : String) (text : List Node → String) :
    Outcome.ofResult ((compileFile name source).map text) =
      match compile source with
      | .ok nodes => .success (Outcome.printed (text nodes)) ""
      | .error error => .failure "" (rejection name source error) := by
  unfold compileFile
  cases compile source <;> rfl

section Tasks

variable (files : Files) (name source : String) (order : TableOrder LiteralType)

/-- A task that shows a program makes some text of it. -/
theorem runTask_shows {task : Task} (shows : task.showsProgram = true) :
    ∃ text : List Node → String, runTask files task name source order =
      match compile source with
      | .ok nodes => .success (Outcome.printed (text nodes)) ""
      | .error error => .failure "" (rejection name source error) := by
  cases task with
  | check | parse | dump => exact ⟨_, ofResult_compileFile name source _⟩
  | tokens | process => exact Bool.noConfusion shows

/-- The lines of the tokens of a source text. -/
def tokenLines (source : String) : List String :=
  (tokenize source).tokens.map fun token => Outcome.printed (tokenLine token)

variable {source} in
/-- The tokens of a text that consists of them are all that is written. -/
theorem runTokens_complete (complete : (tokenize source).isComplete = true) :
    runTokens name source = .success (String.join (tokenLines source)) "" := by
  unfold runTokens
  simp only [complete, if_true]
  rfl

variable {source} in
/-- A text of which some is no token is no program, and is reported as such behind the tokens. -/
theorem runTokens_incomplete (incomplete : (tokenize source).isComplete = false) :
    ∃ error, compile source = .error error ∧ runTokens name source =
      .failure (String.join (tokenLines source)) (rejection name source error) := by
  cases compiled : compile source with
  | ok nodes => simp [isComplete_of_compile compiled] at incomplete
  | error error =>
    refine ⟨error, rfl, ?_⟩
    unfold runTokens compileFile
    simp only [incomplete, Bool.false_eq_true, if_false, compiled]
    rfl

/-- The tokens are written whether something else follows them or not. -/
theorem runTokens_output :
    (runTokens name source).output = String.join (tokenLines source) := by
  cases whole : (tokenize source).isComplete with
  | true =>
    rw [runTokens_complete name whole]
    rfl
  | false =>
    obtain ⟨_, _, listed⟩ := runTokens_incomplete name whole
    rw [listed]
    rfl

/-- Listing the tokens succeeds if nothing else follows them. -/
theorem runTokens_status :
    (runTokens name source).status = 0 ↔ (tokenize source).isComplete = true := by
  cases whole : (tokenize source).isComplete with
  | true => simp [runTokens_complete name whole, Outcome.success]
  | false =>
    obtain ⟨_, _, listed⟩ := runTokens_incomplete name whole
    simp [listed, Outcome.failure]

/-- Without values and types a processor is prepared alike in every order. -/
theorem processorOf_valueless {options : ProcessOptions} (valueless : options.Valueless) :
    processorOf options .empty order =
      { Processor.new with enabled := !options.placeholdersOnly } := by
  rw [processorOf, valueless.placeholders]
  congr 1
  exact order.arrange_empty

/-- Without values a file is processed by such a processor. -/
theorem runProcess_valueless {options : ProcessOptions} (valueless : options.Valueless) :
    runProcess files options name source order =
      processWith { Processor.new with enabled := !options.placeholdersOnly } options name
        source := by
  have read : readData files options = .ok .empty := by
    rw [readData, valueless.dataFile, valueless.definitions]
    rfl
  rw [runProcess, read]
  dsimp only
  rw [processorOf_valueless order valueless]

/-- Processing without options writes the program out, and reports the same failure. -/
theorem runTask_process :
    runTask files (.process .none) name source order =
      runTask files .parse name source order := by
  have valueless : ProcessOptions.none.Valueless := ⟨rfl, rfl, rfl⟩
  have run : runTask files (.process .none) name source order =
      processWith Processor.new .none name source :=
    runProcess_valueless files name source order valueless
  rw [run, processWith, Processor.tryProcess_new, runTask, ofResult_compileFile]
  cases compile source <;> rfl

/-- Without values there is nothing to exchange, and if nothing else is done, the text is written
    out as it is. -/
theorem runTask_placeholdersOnly {options : ProcessOptions} (valueless : options.Valueless)
    (only : options.placeholdersOnly = true) :
    runTask files (.process options) name source order = ⟨source ++ "\n", "", 0, []⟩ := by
  let processor : Processor := { Processor.new with enabled := false }
  have processed : processor.tryProcess source = (.ok source, processor) := by
    rw [Processor.tryProcess_disabled source rfl]
    exact congrArg (fun result => (Except.mapError _ result, processor))
      (Processor.substitutePlaceholders_empty source .empty)
  have run : runTask files (.process options) name source order =
      processWith processor options name source := by
    have given := runProcess_valueless files name source order valueless
    rwa [only] at given
  have nothing : uniformLines processor.uniforms = "" := by decide +kernel
  have unrecorded : processor.processRecords source = [] := by
    rw [Processor.processRecords, processed]
  rw [run, processWith]
  cases options.lenient with
  | true =>
    simp only [Processor.process, processed, nothing, ite_self, unrecorded]
    rfl
  | false =>
    simp only [Bool.false_eq_true, if_false, processed, nothing, ite_self]
    rfl

end Tasks

/-- What comes of the commands for one source file, in whatever order tables are gone through. -/
structure Agreement (files : Files) (name source : String) (order : TableOrder LiteralType) :
    Prop where
  /-- The commands that show a program succeed on programs only. -/
  accepted : ∀ task, task.showsProgram = true →
    ((run files ⟨task, name⟩ order).status = 0 ↔ ∃ nodes, compile source = .ok nodes)
  /-- On any other text they report the same failure, and nothing else. -/
  rejected : (∃ error, compile source = .error error) → ∀ task, task.showsProgram = true →
    run files ⟨task, name⟩ order = ⟨"", (run files ⟨.check, name⟩ order).report, 1, []⟩
  complete : (run files ⟨.tokens, name⟩ order).status = 0 ↔ (tokenize source).isComplete = true
  checked : (run files ⟨.check, name⟩ order).status = 0 →
    (run files ⟨.tokens, name⟩ order).status = 0
  /-- The tokens are listed as far as the text consists of them, each on a line of its own. -/
  listed : ∃ lines, List.Forall₂ ShowsToken (tokenize source).tokens lines ∧
    (run files ⟨.tokens, name⟩ order).output = String.join lines
  /-- If this is not the end, the rest is what comes of checking the file. -/
  incomplete : (tokenize source).isComplete = false →
    run files ⟨.tokens, name⟩ order =
      { run files ⟨.check, name⟩ order with
        output := (run files ⟨.tokens, name⟩ order).output }
  /-- Processing without options is writing the program out. -/
  processed : run files ⟨.process .none, name⟩ order = run files ⟨.parse, name⟩ order
  /-- If only placeholders are exchanged and none has a value, the text is written out. -/
  unprocessed : ∀ options : ProcessOptions, options.Valueless → options.placeholdersOnly = true →
    run files ⟨.process options, name⟩ order = ⟨source ++ "\n", "", 0, []⟩
  /-- What a program is written out as is a program, which is written out alike. -/
  again : (run files ⟨.parse, name⟩ order).status = 0 →
    ∀ files' name', files' name' = .ok (run files ⟨.parse, name⟩ order).output →
      (run files' ⟨.check, name'⟩ order).status = 0 ∧
        run files' ⟨.parse, name'⟩ order = run files ⟨.parse, name⟩ order

section Runs

variable (order : TableOrder LiteralType)

/-- A command that shows a program succeeds on programs only. -/
theorem status_eq_zero_iff {task : Task} (shows : task.showsProgram = true)
    (held : files name = .ok source) :
    (run files ⟨task, name⟩ order).status = 0 ↔ ∃ nodes, compile source = .ok nodes := by
  obtain ⟨text, shown⟩ := runTask_shows files name source order shows
  rw [run_eq task order held, shown]
  cases compile source <;> simp [Outcome.success, Outcome.failure]

/-- On any other text it reports why this is no program. -/
theorem run_rejected {task : Task} (shows : task.showsProgram = true)
    (held : files name = .ok source) {error : ParseError} (failed : compile source = .error error) :
    run files ⟨task, name⟩ order = .failure "" (rejection name source error) := by
  obtain ⟨text, shown⟩ := runTask_shows files name source order shows
  rw [run_eq task order held, shown, failed]

/-- A program is written out. -/
theorem run_parse (held : files name = .ok source) {nodes : List Node}
    (compiled : compile source = .ok nodes) :
    run files ⟨.parse, name⟩ order = .success (Outcome.printed (renderProgram nodes)) "" := by
  rw [run_eq .parse order held, runTask, ofResult_compileFile, compiled]

end Runs

/-- Arguments with which a file can be checked name it for all commands, and these agree on it. -/
theorem runArguments_agreement {arguments : List String}
    (asked : ofArguments ("check" :: arguments) = .ok ⟨.check, name⟩)
    (held : files name = .ok source) (order : TableOrder LiteralType) :
    (∀ entry ∈ fronts,
      runArguments files (entry.1 ++ arguments) order = run files ⟨entry.2, name⟩ order) ∧
        Agreement files name source order := by
  have tokens := run_eq .tokens order held
  have complete : (run files ⟨.tokens, name⟩ order).status = 0 ↔
      (tokenize source).isComplete = true :=
    tokens ▸ runTokens_status name source
  refine ⟨?fronts, fun task shows => status_eq_zero_iff order shows held, ?rejected, complete,
    ?checked, ?listed, ?incomplete, ?processed, ?unprocessed, ?again⟩
  case fronts =>
    intro entry member
    rw [runArguments, ofArguments_front asked entry member]
  case rejected =>
    rintro ⟨error, failed⟩ task shows
    rw [run_rejected order shows held failed, run_rejected order rfl held failed]
    rfl
  case checked =>
    intro succeeded
    obtain ⟨nodes, compiled⟩ := (status_eq_zero_iff order rfl held).mp succeeded
    exact complete.mpr (isComplete_of_compile compiled)
  case listed =>
    exact ⟨tokenLines source, forall₂_tokenLine _, tokens ▸ runTokens_output name source⟩
  case incomplete =>
    intro whole
    obtain ⟨error, failed, listed⟩ := runTokens_incomplete name whole
    rw [tokens, runTask, listed, run_rejected order rfl held failed]
    rfl
  case processed =>
    rw [run_eq _ order held, run_eq _ order held, runTask_process]
  case unprocessed =>
    intro options valueless only
    rw [run_eq _ order held, runTask_placeholdersOnly files name source order valueless only]
  case again =>
    intro succeeded files' name' held'
    obtain ⟨nodes, compiled⟩ := (status_eq_zero_iff order rfl held).mp succeeded
    obtain ⟨_, _, _, shaped, nested⟩ := exists_of_compile compiled
    have compiled' := shaped.compile_printed_line nested
    rw [run_parse order held compiled] at held' ⊢
    exact ⟨(status_eq_zero_iff order rfl held').mpr ⟨nodes, compiled'⟩,
      run_parse order held' compiled'⟩

/-- A minus without a value behind it is a token, but no program. -/
theorem runArguments_agreement_minus :
    ofArguments ["check", "--", "-.frag"] = .ok ⟨.check, "-.frag"⟩ ∧
      Files.ofList [("-.frag", .ok "x = -;")] "-.frag" = .ok "x = -;" ∧
        ∀ order,
          (∀ entry ∈ fronts,
            runArguments (Files.ofList [("-.frag", .ok "x = -;")]) (entry.1 ++ ["--", "-.frag"])
                order =
              run (Files.ofList [("-.frag", .ok "x = -;")]) ⟨entry.2, "-.frag"⟩ order) ∧
            Agreement (Files.ofList [("-.frag", .ok "x = -;")]) "-.frag" "x = -;" order := by
  have asked : ofArguments ["check", "--", "-.frag"] = .ok ⟨.check, "-.frag"⟩ := by
    decide +kernel
  have held : Files.ofList [("-.frag", .ok "x = -;")] "-.frag" = .ok "x = -;" := by
    decide +kernel
  exact ⟨asked, held, runArguments_agreement asked held⟩

end Command

end ShaderSource
