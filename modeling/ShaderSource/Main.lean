import ShaderSource.Command.Run

/-!
# The command line

Reads the files that a command names, runs the command on them and writes out
what comes of it. The setting of the log is taken from the environment.
-/

namespace ShaderSource

/-- The fault behind a failed access to a file. -/
def FileFault.ofError : IO.Error → FileFault
  | .noFileOrDirectory .. => .missing
  | .permissionDenied .. => .denied
  | .inappropriateType .. => .directory
  | error => .other (toString error)

/-- Reads a file as a text. -/
def readText (name : String) : IO (Except FileFault String) := do
  try
    let bytes ← IO.FS.readBinFile name
    match String.fromUTF8? bytes with
    | some text => return .ok text
    | none => return .error .notText
  catch error => return .error (.ofError error)

/-- Runs a command on the files of the system. -/
def execute (command : Command) : IO Outcome := do
  let contents ← command.files.mapM fun name => return (name, ← readText name)
  return command.run (.ofList contents)

end ShaderSource

open ShaderSource

def main (arguments : List String) : IO UInt32 := do
  let outcome ← match Command.ofArguments arguments with
    | .ok command => execute command
    | .error error => pure (Outcome.usage error)
  let log := LogWriter.ofSetting (← IO.getEnv "RUST_LOG")
  IO.print outcome.output
  IO.eprint (outcome.besides log)
  return outcome.status.toUInt32
