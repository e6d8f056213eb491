import ShaderSource.Diagnostic.Snippet
import ShaderSource.Processor

/-!
# The log

Besides its results a run may leave records of what happened. What becomes of them
is not decided by the run: a writer lets some of them pass and drops the others, and
it gives those that pass their form, such as the time in front of them.

Only what matters at least as much as a warning is recorded here. Finer records are
dropped unless somebody asks for them.
-/

namespace ShaderSource

/-- How much a record matters, the gravest level first. -/
inductive LogLevel where
  | error
  | warn
  | info
  | debug
  | trace
  deriving DecidableEq, Repr

namespace LogLevel

def name : LogLevel → String
  | error => "ERROR"
  | warn => "WARN"
  | info => "INFO"
  | debug => "DEBUG"
  | trace => "TRACE"

/-- How far a level is from the gravest one. -/
def rank : LogLevel → Nat
  | error => 0
  | warn => 1
  | info => 2
  | debug => 3
  | trace => 4

end LogLevel

/-- Something that happened in a run. -/
structure LogRecord where
  level : LogLevel
  /-- The part of the program that leaves the record. -/
  target : String
  message : String
  deriving DecidableEq, Repr

/-- What becomes of records: those that pass are written in some form. -/
structure LogWriter where
  passes : LogRecord → Bool
  form : LogRecord → String

namespace LogWriter

/-- The text that is written of some records, each on lines of its own. -/
def write (writer : LogWriter) (records : List LogRecord) : String :=
  String.join ((records.filter writer.passes).map fun record => writer.form record ++ "\n")

/-- Writes the records down to a level, without the time. -/
def downTo (least : LogLevel) : LogWriter where
  passes record := record.level.rank ≤ least.rank
  form record := record.level.name ++ " " ++ record.target ++ ": " ++ record.message

/-- Writes no record. -/
def silent : LogWriter where
  passes _ := false
  form record := record.message

/-- The writer for a setting of one level. Without one, warnings are the least that passes, and
    so they are with a finer level, as nothing finer is recorded. Settings for single parts of the
    program are not told apart from this. -/
def ofSetting : Option String → LogWriter
  | some "off" => silent
  | some "error" => downTo .error
  | _ => downTo .warn

end LogWriter

/-- The record of a failure that a processor goes on after. -/
def ShaderError.record (error : ShaderError) : LogRecord where
  level := .error
  target := "qshade"
  message := "shader processing failed, using the source as is\n" ++ error.render

/-- What a processor records when it processes a source text. -/
def Processor.processRecords (processor : Processor) (source : String) : List LogRecord :=
  match (processor.tryProcess source).1 with
  | .ok _ => []
  | .error error => [error.record]

end ShaderSource
