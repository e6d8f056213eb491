import ShaderSource.Placeholder

/-!
# Commands

A command does one thing with one source file. Processing takes values and
types besides, written out one by one or in a file of their own.
-/

namespace ShaderSource

/-- What processing is asked to do. -/
structure ProcessOptions where
  /-- The values given one by one, in their order. -/
  definitions : List (String × HostValue)
  /-- The file with more values. -/
  dataFile : Option String
  /-- The types of placeholders, in their order. -/
  placeholders : List (String × LiteralType)
  /-- If set, only placeholders are exchanged. -/
  placeholdersOnly : Bool
  /-- If set, the uniforms of the shader are listed. -/
  listUniforms : Bool
  /-- If set, a failure leaves the source text as it is. -/
  lenient : Bool
  deriving DecidableEq

/-- What can be done with a source file. -/
inductive Task where
  /-- Says whether the file holds a program. -/
  | check
  /-- Lists the tokens. -/
  | tokens
  /-- Writes the program out again. -/
  | parse
  /-- Writes out the tree of the program. -/
  | dump (asJson : Bool)
  | process (options : ProcessOptions)
  deriving DecidableEq

/-- A task and the source file it is for. -/
structure Command where
  task : Task
  input : String
  deriving DecidableEq

namespace Command

/-- The files that a command reads. -/
def files (command : Command) : List String :=
  command.input ::
    match command.task with
    | .process options => options.dataFile.toList
    | _ => []

end Command

end ShaderSource
