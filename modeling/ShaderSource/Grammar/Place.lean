import ShaderSource.Grammar.Failure

/-!
# Places between tokens

Reading a program moves from the front of its tokens to their end. A place
knows the token before it and all tokens behind it, which is what a failure at
that place reports.
-/

namespace ShaderSource

/-- A place in a list of tokens. -/
structure Place where
  /-- The number of tokens before the place. -/
  index : Nat
  /-- The nearest token before the place. -/
  previous : Option Token
  /-- The tokens behind the place. -/
  rest : List Token
  deriving DecidableEq, Repr

namespace Place

/-- The place before the token with an index. Behind the end no tokens are left. -/
def ofTokens (tokens : List Token) (index : Nat) : Place :=
  ⟨index, (tokens.take index).getLast?, tokens.drop index⟩

/-- The place behind the next token. -/
def advance (place : Place) : Place :=
  match place.rest with
  | [] => place
  | token :: rest => ⟨place.index + 1, some token, rest⟩

/-- The end of the token before a place. -/
def previousStop (place : Place) : Nat :=
  match place.previous with
  | some token => token.span.stop
  | none => 0

/-- Where the next token stands. At the end it is the empty span behind the last token. -/
def span (place : Place) : Span :=
  match place.rest with
  | token :: _ => token.span
  | [] => .empty place.previousStop

/-- Where the tokens behind a place stand. -/
def remainderSpan (place : Place) : Span :=
  match place.rest with
  | first :: others => first.span.through ((first :: others).getLast (by simp)).span
  | [] => .empty place.previousStop

/-- The failure to take the tokens behind a place. -/
def unexpected (place : Place) (flags : Flags) (expected : Option String) : SyntaxError :=
  ⟨flags, expected, place.previous, " ".intercalate (place.rest.map Token.text),
    place.remainderSpan⟩

end Place

end ShaderSource
