import ShaderSource.Command.Arguments
import ShaderSource.DataFile
import ShaderSource.Diagnostic.Snippet
import ShaderSource.Json.Printer
import ShaderSource.Log
import ShaderSource.Tree.Form
import ShaderSource.Tree.Outline

/-!
# Running commands

A command is run on files whose contents are known, and its outcome is what it
writes and its exit status: zero for success, one for a failure, two for
arguments that are no command. A failure is reported apart from the output, and
so is what a run records.

The types of placeholders are gone through in some order. It counts only where
the literal of one placeholder is part of another one.
-/

namespace ShaderSource

/-- Why a file cannot be read. -/
inductive FileFault where
  | missing
  | denied
  | directory
  /-- The file is no text. -/
  | notText
  | other (reason : String)
  deriving DecidableEq, Repr

def FileFault.message : FileFault → String
  | missing => "No such file or directory (os error 2)"
  | denied => "Permission denied (os error 13)"
  | directory => "Is a directory (os error 21)"
  | notText => "stream did not contain valid UTF-8"
  | other reason => reason

/-- The contents of files by name. -/
abbrev Files : Type := String → Except FileFault String

/-- The files of a list of names and contents. The others are missing. -/
def Files.ofList (contents : List (String × Except FileFault String)) : Files := fun name =>
  (contents.lookup name).getD (.error .missing)

/-- Why a command fails. -/
inductive CommandError where
  | unreadable (file : String) (fault : FileFault)
  /-- The file of values with this text holds none. -/
  | badData (file text : String) (error : JsonError)
  | shader (error : ShaderError)
  deriving DecidableEq

/-- The report of a failed command. -/
def CommandError.message : CommandError → String
  | unreadable file fault => "could not read `" ++ file ++ "`: " ++ fault.message
  | badData file text error => "invalid data file `" ++ file ++ "`: " ++ error.message text
  | shader error => error.render

/-- What comes of a command. -/
structure Outcome where
  output : String
  /-- What is reported apart from the output. -/
  report : String
  status : Nat
  /-- What is recorded, all of it before the report. -/
  records : List LogRecord
  deriving DecidableEq, Repr

namespace Outcome

/-- A text as lines of its own. -/
def printed (text : String) : String := text ++ "\n"

def success (output report : String) : Outcome := ⟨output, report, 0, []⟩

/-- A failure after some output. -/
def failure (output : String) (error : CommandError) : Outcome :=
  ⟨output, printed error.message, 1, []⟩

def usage (error : UsageError) : Outcome := ⟨"", printed error.message, 2, []⟩

/-- The success with the text of a result, or the failure without output. -/
def ofResult : Except CommandError String → Outcome
  | .ok text => success (printed text) ""
  | .error error => failure "" error

/-- All that is written apart from the output: the records that the log writes, and the report. -/
def besides (outcome : Outcome) (log : LogWriter) : String :=
  log.write outcome.records ++ outcome.report

end Outcome

namespace Command

def readFile (files : Files) (name : String) : Except CommandError String :=
  (files name).mapError (.unreadable name)

/-- The program of a source file. -/
def compileFile (file source : String) : Except CommandError (List Node) :=
  (compile source).mapError fun error =>
    .shader (.placed (((Diagnostic.ofCause (.parse error)).withSource source).withFile file))

/-- A number at the right end of a column. -/
def atRight (width : Nat) (value : Nat) : String :=
  let digits := toString value
  "".pushn ' ' (width - digits.length) ++ digits

/-- A number at the left end of a column. -/
def atLeft (width : Nat) (value : Nat) : String :=
  let digits := toString value
  digits.pushn ' ' (width - digits.length)

/-- The line that shows a token. -/
def tokenLine (token : Token) : String :=
  atRight 5 token.span.start ++ ".." ++ atLeft 5 token.span.stop ++ " " ++ token.display

/-- Lists the tokens of a source text up to its end or to what is no token. -/
def runTokens (file source : String) : Outcome :=
  let lexed := tokenize source
  let output := String.join (lexed.tokens.map fun token => Outcome.printed (tokenLine token))
  if lexed.isComplete then .success output ""
  else
    match compileFile file source with
    | .ok _ => .success output ""
    | .error error => .failure output error

/-- The text of a tree. -/
def treeText (asJson : Bool) (nodes : List Node) : String :=
  if asJson then (Json.array (Node.listToJson nodes)).render else (programOutline nodes).render

/-- The values for processing: those of the file, with the definitions in place of them. -/
def readData (files : Files) (options : ProcessOptions) : Except CommandError DataTable :=
  match options.dataFile with
  | none => .ok (.ofList options.definitions)
  | some file => do
    let text ← readFile files file
    let data ← (DataFile.read text).mapError (.badData file text)
    return data.extend options.definitions

/-- A processor with the values and types of a command. -/
def processorOf (options : ProcessOptions) (data : DataTable) (order : TableOrder LiteralType) :
    Processor :=
  { Processor.new with
    enabled := !options.placeholdersOnly
    data := data
    placeholders := order.arrange (.ofList options.placeholders) }

/-- The list of some uniforms, each on a line of its own. -/
def uniformLines (uniforms : UniformTable) : String :=
  String.join (uniforms.sorted.map fun (key, binding) =>
    Outcome.printed (key ++ ": " ++ binding.ty ++ " " ++ binding.sourceName))

/-- Processes a source text with a processor that has its values. -/
def processWith (processor : Processor) (options : ProcessOptions) (file source : String) :
    Outcome :=
  let finish (text : String) (after : Processor) : Outcome :=
    .success (Outcome.printed text)
      (if options.listUniforms then uniformLines after.uniforms else "")
  if options.lenient then
    let (text, after) := processor.process source
    { finish text after with records := processor.processRecords source }
  else
    match processor.tryProcess source with
    | (.ok text, after) => finish text after
    | (.error error, _) =>
      .failure "" (.shader (.placed ((Diagnostic.ofError error).withFile file)))

/-- Processes a source file. -/
def runProcess (files : Files) (options : ProcessOptions) (file source : String)
    (order : TableOrder LiteralType) : Outcome :=
  match readData files options with
  | .ok data => processWith (processorOf options data order) options file source
  | .error error => .failure "" error

/-- Does a task with the text of its source file. -/
def runTask (files : Files) (task : Task) (file source : String)
    (order : TableOrder LiteralType) : Outcome :=
  match task with
  | .check => .ofResult ((compileFile file source).map fun _ => file ++ " -- OK")
  | .tokens => runTokens file source
  | .parse => .ofResult ((compileFile file source).map renderProgram)
  | .dump asJson => .ofResult ((compileFile file source).map (treeText asJson))
  | .process options => runProcess files options file source order

/-- Runs a command on some files. -/
def run (files : Files) (command : Command) (order : TableOrder LiteralType := .asAdded) :
    Outcome :=
  match readFile files command.input with
  | .ok source => runTask files command.task command.input source order
  | .error error => .failure "" error

/-- Runs the command that some arguments ask for. -/
def runArguments (files : Files) (arguments : List String)
    (order : TableOrder LiteralType := .asAdded) : Outcome :=
  match ofArguments arguments with
  | .ok command => run files command order
  | .error error => .usage error

end Command

end ShaderSource
