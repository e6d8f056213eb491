import ShaderSource.Grammar.Flags
import ShaderSource.Token.Lexer

/-!
# Failures of reading a program

A text fails to be a program for one of three reasons: a character begins no
token, some tokens fit no rule, or the rules are nested too deeply. Each
failure knows its place in the text.
-/

namespace ShaderSource

/-- Tokens are left that no rule takes and that do not end the list being read. -/
structure SyntaxError where
  /-- The contexts in which the rules were tried. -/
  flags : Flags
  /-- The text of the token that would have ended the list, if any could. -/
  expected : Option String
  /-- The token before the failure. -/
  last : Option Token
  /-- The texts of the tokens that are left, with spaces between them. -/
  remainder : String
  /-- The place of the tokens that are left. -/
  span : Span
  deriving DecidableEq, Repr

/-- Rules are nested more deeply than is allowed. -/
structure DepthError where
  limit : Nat
  /-- The token at which the limit was reached. -/
  span : Span
  deriving DecidableEq, Repr

/-- Why a text is no program. -/
inductive ParseError where
  | lex (error : LexError)
  | tokens (error : SyntaxError)
  | depth (error : DepthError)
  deriving DecidableEq, Repr

def LexError.message (error : LexError) : String :=
  "unexpected character `" ++ error.found.toString ++ "`"

def SyntaxError.message (error : SyntaxError) : String :=
  let expected :=
    match error.expected with
    | some text => "`" ++ text ++ "`"
    | none => "end of input"
  let last :=
    match error.last with
    | some token => token.display
    | none => "none"
  "failed to process tokens: `" ++ error.remainder ++ "` (flags: " ++ error.flags.display ++
    ", expected: " ++ expected ++ ", last token: " ++ last ++ ")"

def DepthError.message (error : DepthError) : String :=
  "nesting deeper than " ++ toString error.limit ++ " levels"

namespace ParseError

/-- The place of a failure. -/
def span : ParseError → Span
  | lex error => error.span
  | tokens error => error.span
  | depth error => error.span

/-- The report of a failure in words. -/
def message : ParseError → String
  | lex error => error.message
  | tokens error => error.message
  | depth error => error.message

end ParseError

end ShaderSource
