import ShaderSource.Command.Basic

/-!
# Arguments of commands

The first argument names the task. The others are the source file and options,
in any order. An option with a long name begins with `--`, and its value
follows behind a `=` or as the next argument; an option of one letter begins
with `-`, and its value may follow at once. What follows `--` is no option.

An option is given once at most, unless it adds to a list.
-/

namespace ShaderSource

inductive CommandOption where
  | asJson
  | define
  | data
  | placeholder
  | placeholdersOnly
  | listUniforms
  | lenient
  deriving DecidableEq, Repr

namespace CommandOption

/-- The name behind `--`. -/
def name : CommandOption → String
  | asJson => "json"
  | define => "define"
  | data => "data"
  | placeholder => "const"
  | placeholdersOnly => "no-processing"
  | listUniforms => "uniforms"
  | lenient => "lenient"

/-- The letter behind `-`. -/
def letter? : CommandOption → Option Char
  | define => some 'D'
  | _ => none

/-- Whether an option comes with a value. -/
def takesValue : CommandOption → Bool
  | define | data | placeholder => true
  | asJson | placeholdersOnly | listUniforms | lenient => false

/-- The options of processing. -/
def ofProcessing : List CommandOption :=
  [define, data, placeholder, placeholdersOnly, listUniforms, lenient]

end CommandOption

/-- Why arguments are no command. -/
inductive UsageError where
  | missingTask
  | unknownTask (name : String)
  | unknownOption (text : String)
  | missingValue (option : CommandOption)
  | unexpectedValue (option : CommandOption)
  | repeatedOption (option : CommandOption)
  | missingInput
  | unexpectedArgument (text : String)
  /-- A text is empty where a file is named. -/
  | emptyName
  /-- A definition is not of the form `name=value`. -/
  | malformedDefinition (text : String)
  | refusedValue (error : LiteralError)
  deriving DecidableEq

/-- The report of a usage error in words. -/
def UsageError.message : UsageError → String
  | missingTask => "expected one of `check`, `tokens`, `parse`, `dump` and `process`"
  | unknownTask name => "unknown task `" ++ name ++ "`"
  | unknownOption text => "unknown option `" ++ text ++ "`"
  | missingValue option => "option `--" ++ option.name ++ "` needs a value"
  | unexpectedValue option => "option `--" ++ option.name ++ "` takes no value"
  | repeatedOption option => "option `--" ++ option.name ++ "` is given more than once"
  | missingInput => "expected a source file"
  | unexpectedArgument text => "unexpected argument `" ++ text ++ "`"
  | emptyName => "the name of a file is empty"
  | malformedDefinition text => "invalid argument `" ++ text ++ "`, expected `name=value`"
  | refusedValue error => error.message

/-- An argument by its role. -/
inductive Argument where
  | plain (text : String)
  | switch (option : CommandOption)
  | setting (option : CommandOption) (value : String)
  deriving DecidableEq

/-- The form of an argument by itself. -/
inductive ArgumentForm where
  /-- The sign that no options follow. -/
  | endOfOptions
  | long (name : String) (value : Option String)
  | short (letter : Char) (rest : List Char)
  | plain

namespace ArgumentForm

/-- What stands before and behind the first `=` of a text. -/
def splitAtEquals (chars : List Char) : List Char × Option (List Char) :=
  match chars.span (· != '=') with
  | (before, []) => (before, none)
  | (before, _ :: behind) => (before, some behind)

/-- The form of an argument. A lone `-` is a plain one. -/
def ofText (text : String) : ArgumentForm :=
  match text.toList with
  | ['-', '-'] => endOfOptions
  | '-' :: '-' :: rest =>
    let (name, value) := splitAtEquals rest
    long (String.ofList name) (value.map String.ofList)
  | '-' :: letter :: rest => short letter rest
  | _ => plain

end ArgumentForm

namespace Argument

/-- The option with a written form, and the value that is attached to it. -/
def option? (allowed : List CommandOption) : ArgumentForm → Option (CommandOption × Option String)
  | .long name value =>
    (allowed.find? fun option => option.name == name).map fun option => (option, value)
  | .short letter rest =>
    (allowed.find? fun option => option.letter? == some letter).map fun option =>
      (option,
        match rest with
        | [] => none
        | '=' :: value => some (String.ofList value)
        | value => some (String.ofList value))
  | _ => none

/-- Puts an argument before others. -/
def before (argument : Argument) :
    Except UsageError (List Argument) → Except UsageError (List Argument) :=
  Except.map (argument :: ·)

/-- Finds the role of each argument. The value of an option does not begin with `-`, unless
    it is attached. -/
def readAll (allowed : List CommandOption) : List String → Except UsageError (List Argument)
  | [] => .ok []
  | text :: rest =>
    match ArgumentForm.ofText text with
    | .endOfOptions => .ok (rest.map plain)
    | .plain => (plain text).before (readAll allowed rest)
    | form =>
      match option? allowed form with
      | none => .error (.unknownOption text)
      | some (option, some value) =>
        if option.takesValue then (setting option value).before (readAll allowed rest)
        else .error (.unexpectedValue option)
      | some (option, none) =>
        if option.takesValue then
          match rest with
          | [] => .error (.missingValue option)
          | value :: rest =>
            match ArgumentForm.ofText value with
            | .plain => (setting option value).before (readAll allowed rest)
            | _ => .error (.missingValue option)
        else (switch option).before (readAll allowed rest)

/-- The text of a plain argument. -/
def text? : Argument → Option String
  | plain text => some text
  | _ => none

/-- The value that an argument gives to an option. -/
def valueOf? (option : CommandOption) : Argument → Option String
  | setting other value => if other = option then some value else none
  | _ => none

/-- The source file among some arguments. -/
def inputOf (arguments : List Argument) : Except UsageError String :=
  match arguments.filterMap text? with
  | [] => .error .missingInput
  | [input] => if input.isEmpty then .error .emptyName else .ok input
  | _ :: text :: _ => .error (.unexpectedArgument text)

/-- Whether an option without value is among some arguments. -/
def isSwitchedOn (option : CommandOption) (arguments : List Argument) : Except UsageError Bool :=
  match arguments.count (switch option) with
  | 0 => .ok false
  | 1 => .ok true
  | _ => .error (.repeatedOption option)

/-- The values of an option that adds to a list. -/
def valuesOf (option : CommandOption) (arguments : List Argument) : List String :=
  arguments.filterMap (valueOf? option)

/-- The file named by an option, if it is given. -/
def fileOf? (option : CommandOption) (arguments : List Argument) :
    Except UsageError (Option String) :=
  match valuesOf option arguments with
  | [] => .ok none
  | [name] => if name.isEmpty then .error .emptyName else .ok (some name)
  | _ => .error (.repeatedOption option)

end Argument

/-- A name with what is given to it, from a text of the form `name=value`. -/
def readDefinition {α : Type} (value : String → Except LiteralError α) (text : String) :
    Except UsageError (String × α) :=
  match ArgumentForm.splitAtEquals text.toList with
  | ([], _) | (_, none) => .error (.malformedDefinition text)
  | (name, some given) =>
    match value (String.ofList given) with
    | .ok given => .ok (String.ofList name, given)
    | .error error => .error (.refusedValue error)

namespace ProcessOptions

open Argument

/-- What processing is asked to do by some arguments. -/
def ofArguments (arguments : List Argument) : Except UsageError ProcessOptions := do
  let definitions ← (valuesOf .define arguments).mapM (readDefinition HostValue.ofText)
  let dataFile ← fileOf? .data arguments
  let placeholders ← (valuesOf .placeholder arguments).mapM (readDefinition LiteralType.ofName)
  let placeholdersOnly ← isSwitchedOn .placeholdersOnly arguments
  let listUniforms ← isSwitchedOn .listUniforms arguments
  let lenient ← isSwitchedOn .lenient arguments
  return { definitions, dataFile, placeholders, placeholdersOnly, listUniforms, lenient }

end ProcessOptions

namespace Command

/-- The command of a task that some arguments ask for, with the options that the task has. -/
def ofTask (allowed : List CommandOption) (task : List Argument → Except UsageError Task)
    (arguments : List String) : Except UsageError Command := do
  let arguments ← Argument.readAll allowed arguments
  return ⟨← task arguments, ← Argument.inputOf arguments⟩

/-- The command that arguments ask for. -/
def ofArguments : List String → Except UsageError Command
  | [] => .error .missingTask
  | "check" :: arguments => ofTask [] (fun _ => .ok .check) arguments
  | "tokens" :: arguments => ofTask [] (fun _ => .ok .tokens) arguments
  | "parse" :: arguments => ofTask [] (fun _ => .ok .parse) arguments
  | "dump" :: arguments =>
    ofTask [.asJson] (fun given => (Argument.isSwitchedOn .asJson given).map .dump) arguments
  | "process" :: arguments =>
    ofTask CommandOption.ofProcessing
      (fun given => (ProcessOptions.ofArguments given).map .process) arguments
  | name :: _ => .error (.unknownTask name)

end Command

end ShaderSource
