import ShaderSource.Grammar.Failure
import ShaderSource.Literal

/-!
# Diagnostics

A diagnostic is a failure with what is known about its place: the text that
was read, the file it came from, the declaration at fault and the span in the
text. A failure of reading brings its span along.
-/

namespace ShaderSource

/-- What went wrong with a shader. -/
inductive Cause where
  | parse (error : ParseError)
  | literal (error : LiteralError)
  deriving DecidableEq

def Cause.message : Cause → String
  | parse error => error.message
  | literal error => error.message

/-- A failure with its place. -/
structure Diagnostic where
  cause : Cause
  source : Option String
  file : Option String
  declaration : Option String
  span : Option Span
  deriving DecidableEq

namespace Diagnostic

/-- The diagnostic of a failure by itself. -/
def ofCause (cause : Cause) : Diagnostic where
  cause := cause
  source := none
  file := none
  declaration := none
  span :=
    match cause with
    | .parse error => some error.span
    | .literal _ => none

def withSource (diagnostic : Diagnostic) (source : String) : Diagnostic :=
  { diagnostic with source := some source }

def withFile (diagnostic : Diagnostic) (file : String) : Diagnostic :=
  { diagnostic with file := some file }

def withDeclaration (diagnostic : Diagnostic) (declaration : String) : Diagnostic :=
  { diagnostic with declaration := some declaration }

end Diagnostic

/-- The failure of a whole run: a bare cause, or one with its place. -/
inductive ShaderError where
  | bare (cause : Cause)
  | placed (diagnostic : Diagnostic)
  deriving DecidableEq

/-- The diagnostic of a failure. One that has its place keeps it. -/
def Diagnostic.ofError : ShaderError → Diagnostic
  | .bare cause => .ofCause cause
  | .placed diagnostic => diagnostic

end ShaderSource
