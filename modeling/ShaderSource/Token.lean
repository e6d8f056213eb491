import ShaderSource.Span

/-!
# Tokens

A token is a classified piece of the source text together with its place. Two
tokens are the same only if they also stand at the same place; the parser
decides by kind and text alone.
-/

namespace ShaderSource

/-- The classes of tokens. -/
inductive TokenKind where
  | identifier
  | integer
  | float
  | bracket
  | operator
  | equality
  | boolop
  | marker
  | assign
  | crement
  | string
  deriving DecidableEq, Repr, Inhabited

/-- The name under which a class is reported. -/
def TokenKind.name : TokenKind → String
  | .identifier => "identifier"
  | .integer => "integer"
  | .float => "float"
  | .bracket => "bracket"
  | .operator => "operator"
  | .equality => "equality"
  | .boolop => "boolop"
  | .marker => "marker"
  | .assign => "assign"
  | .crement => "crement"
  | .string => "string"

/-- A classified piece of the source text. -/
structure Token where
  kind : TokenKind
  text : String
  span : Span
  deriving DecidableEq, Repr, Inhabited

/-- The way a token is shown in messages: its class and its text in angle brackets. -/
def Token.display (token : Token) : String :=
  token.kind.name ++ "<" ++ token.text ++ ">"

end ShaderSource
