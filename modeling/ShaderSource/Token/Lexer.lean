import ShaderSource.Text.Blank
import ShaderSource.Token

/-!
# Splitting a source text into tokens

At each place the longest piece that fits one of the token classes or one of
the gaps between tokens is taken. The gaps are blanks, line comments, which end
before the line feed, and closed block comments. A block comment that is never
closed is no gap: its slash is an operator, and reading goes on at the star.

Reading stops at the first place where nothing fits. What was read until then
stands, and the rest of the text is kept as it is.
-/

namespace ShaderSource

/-- The two roles that a piece of the text can have. -/
inductive Lexeme where
  | gap
  | token (kind : TokenKind)
  deriving DecidableEq, Repr

/-- No token and no gap starts at the place of the span. -/
structure LexError where
  found : Char
  span : Span
  /-- The text from the offending character to its end. -/
  remainder : String
  deriving DecidableEq, Repr

namespace Lexeme

/-- A character that can begin an identifier: a letter of the ASCII range, an
    underscore or a dollar sign. -/
def beginsIdentifier (char : Char) : Bool :=
  char.isAlpha || char == '_' || char == '$'

/-- A character that can go on in an identifier. -/
def continuesIdentifier (char : Char) : Bool :=
  beginsIdentifier char || char.isDigit

/-- How many characters at the front of a text have a property. -/
def runLength (property : Char → Bool) (chars : List Char) : Nat :=
  (chars.takeWhile property).length

/-- The length of what is left of a block comment after its opening, its
    closing included. -/
def blockCommentTail : List Char → Option Nat
  | [] => none
  | '*' :: '/' :: _ => some 2
  | _ :: rest => (blockCommentTail rest).map (· + 1)

/-- The length of what is left of a string after its opening quote, its closing
    quote included. A backslash takes the next character with it, which may not
    be a line feed. -/
def stringTail : List Char → Option Nat
  | [] => none
  | '"' :: _ => some 1
  | ['\\'] => none
  | '\\' :: escaped :: rest =>
    if escaped = '\n' then none else (stringTail rest).map (· + 2)
  | _ :: rest => (stringTail rest).map (· + 1)

/-- The longest number at the front of a text. A float needs a digit after its
    point, though none before it. -/
def number? (chars : List Char) : Option (TokenKind × Nat) :=
  let whole := runLength Char.isDigit chars
  let fraction :=
    match chars.drop whole with
    | '.' :: rest => runLength Char.isDigit rest
    | _ => 0
  if 0 < fraction then some (.float, whole + 1 + fraction)
  else if 0 < whole then some (.integer, whole)
  else none

/-- The fixed spellings, those of two characters before those of one. -/
def symbols : List (List Char × TokenKind) :=
  [(['=', '='], .equality), (['!', '='], .equality), (['>', '='], .equality),
   (['<', '='], .equality), (['|', '|'], .boolop), (['&', '&'], .boolop),
   (['+', '='], .assign), (['-', '='], .assign), (['*', '='], .assign),
   (['/', '='], .assign), (['%', '='], .assign),
   (['+', '+'], .crement), (['-', '-'], .crement),
   (['('], .bracket), ([')'], .bracket), (['\x7b'], .bracket), (['\x7d'], .bracket),
   (['['], .bracket), ([']'], .bracket),
   (['+'], .operator), (['-'], .operator), (['*'], .operator), (['/'], .operator),
   (['!'], .operator), (['%'], .operator),
   (['>'], .equality), (['<'], .equality),
   ([','], .marker), ([';'], .marker), ([':'], .marker), (['.'], .marker),
   (['?'], .marker), (['|'], .marker),
   (['='], .assign)]

/-- The longest fixed spelling at the front of a text. -/
def symbol? (chars : List Char) : Option (TokenKind × Nat) :=
  (symbols.find? fun (spelling, _) => spelling.isPrefixOf chars).map
    fun (spelling, kind) => (kind, spelling.length)

/-- The longest piece at the front of a text that is a gap or a token, with its
    length in characters. -/
def longest? : List Char → Option (Lexeme × Nat)
  | [] => none
  | '/' :: '/' :: rest => some (.gap, 2 + runLength (· != '\n') rest)
  | '/' :: '*' :: rest =>
    match blockCommentTail rest with
    | some length => some (.gap, 2 + length)
    | none => some (.token .operator, 1)
  | '"' :: rest => (stringTail rest).map fun length => (.token .string, 1 + length)
  | char :: rest =>
    if Text.isBlank char then
      some (.gap, 1 + runLength Text.isBlank rest)
    else if beginsIdentifier char then
      some (.token .identifier, 1 + runLength continuesIdentifier rest)
    else
      match number? (char :: rest) with
      | some (kind, length) => some (.token kind, length)
      | none => (symbol? (char :: rest)).map fun (kind, length) => (.token kind, length)

end Lexeme

/-- A reader that gives the tokens of a text one by one. -/
structure Lexer where
  /-- What is still to be read. -/
  rest : List Char
  /-- The place of `rest` in the whole text. -/
  offset : Nat
  /-- Set once nothing fitted: then no more tokens come. -/
  failed : Bool
  deriving DecidableEq, Repr

namespace Lexer

/-- A reader at the front of a text. -/
def ofSource (source : String) : Lexer := ⟨source.toList, 0, false⟩

/-- The error at the front of the text that begins with `found`. -/
def errorAt (found : Char) (rest : List Char) (offset : Nat) : LexError :=
  ⟨found, ⟨offset, offset + found.utf8Size⟩, String.ofList (found :: rest)⟩

/-- Passes the gaps and takes one token. Nothing is left at the end of the text;
    an error is the last item.

    Each piece has at least one character, so dropping one character less from
    the tail leaves what follows the piece. -/
def read (chars : List Char) (offset : Nat) : Option (Except LexError Token × Lexer) :=
  match chars with
  | [] => none
  | char :: tail =>
    match Lexeme.longest? (char :: tail) with
    | none => some (.error (errorAt char tail offset), ⟨char :: tail, offset, true⟩)
    | some (lexeme, length) =>
      let piece := (char :: tail).take length
      let rest := tail.drop (length - 1)
      let next := offset + utf8Length piece
      match lexeme with
      | .gap => read rest next
      | .token kind =>
        some (.ok ⟨kind, String.ofList piece, ⟨offset, next⟩⟩, ⟨rest, next, false⟩)
termination_by chars.length
decreasing_by
  simp only [List.length_cons, List.length_drop]
  omega

/-- The next token or the error that ends the text, and the reader after it. -/
def next? (lexer : Lexer) : Option (Except LexError Token × Lexer) :=
  if lexer.failed then none else read lexer.rest lexer.offset

/-- A token takes at least one character. -/
theorem read_shortens {chars : List Char} {offset : Nat} {token : Token} {after : Lexer}
    (read_token : read chars offset = some (.ok token, after)) :
    after.rest.length < chars.length := by
  fun_induction read chars offset with
  | case1 => simp at read_token
  | case2 => simp at read_token
  | case3 offset char tail length piece rest next found inductionHypothesis =>
    have shorter := inductionHypothesis read_token
    simp only [rest, List.length_drop] at shorter
    simp only [List.length_cons]
    omega
  | case4 offset char tail length piece rest next kind found =>
    simp only [Option.some.injEq, Prod.mk.injEq] at read_token
    simp only [← read_token.2, rest, List.length_drop, List.length_cons]
    omega

end Lexer

/-- The tokens read from a text, and what could not be read. -/
structure Lexed where
  tokens : List Token
  /-- The text from the first place where nothing fitted. -/
  remainder : String
  /-- The place of `remainder`. -/
  offset : Nat
  deriving DecidableEq, Repr

namespace Lexed

/-- Whether the whole text was read. -/
def isComplete (lexed : Lexed) : Bool := lexed.remainder == ""

/-- The tokens of a text that was read completely, otherwise the error at its
    remainder. -/
def tokens? (lexed : Lexed) : Except LexError (List Token) :=
  match lexed.remainder.toList with
  | [] => .ok lexed.tokens
  | found :: rest => .error (Lexer.errorAt found rest lexed.offset)

/-- The reading of a text from a place on. -/
def ofChars (chars : List Char) (offset : Nat) : Lexed :=
  match _found : Lexer.read chars offset with
  | none => ⟨[], "", offset + utf8Length chars⟩
  | some (.error error, _) => ⟨[], error.remainder, error.span.start⟩
  | some (.ok token, after) =>
    let later := ofChars after.rest after.offset
    { later with tokens := token :: later.tokens }
termination_by chars.length
decreasing_by exact Lexer.read_shortens (by assumption)

end Lexed

/-- Splits a source text into tokens. -/
def tokenize (source : String) : Lexed := Lexed.ofChars source.toList 0

end ShaderSource
