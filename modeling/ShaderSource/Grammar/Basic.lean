import ShaderSource.Grammar.Attempt

/-!
# Grammars

A grammar is an ordered list of rules. Of the rules that belong to the
contexts being read, the first one that fits is taken. A rule that does not fit
leaves no trace, since every attempt begins at the same place.

Rules read one another, one level deeper each time. The levels are limited, so
reading ends for every grammar, even where a rule begins by reading itself.
-/

namespace ShaderSource

/-- How many levels may be nested in the first one. -/
def maxDepth : Nat := 128

/-- A rule: its contexts, and the attempt that builds its node. -/
structure Rule where
  name : String
  flags : Flags
  build : Attempt Node

/-- A list of rules in the order in which they are tried. -/
structure Grammar where
  rules : List Rule

namespace Grammar

/-- The first rule that fits at a place. -/
def firstFit (setting : Setting) (place : Place) :
    List Rule → Except ParseError (Option (Node × Place))
  | [] => .ok none
  | rule :: rules =>
    match rule.build setting place with
    | .ok result => .ok (some result)
    | .error .mismatch => firstFit setting place rules
    | .error (.fatal error) => .error error

/-- A reader with a number of levels, its own among them. Without any level left, reading
    fails at the place. -/
def reader (grammar : Grammar) : (levels : Nat) → NodeReader
  | 0 => fun _ _ place => .error (.depth ⟨maxDepth, place.span⟩)
  | levels + 1 => fun flags subject place =>
    firstFit ⟨flags, subject, maxDepth - levels, reader grammar levels⟩ place
      (grammar.rules.filter (·.flags.intersects flags))

/-- The reader of the first level. -/
def topReader (grammar : Grammar) : NodeReader := grammar.reader (maxDepth + 1)

/-- Reads one node at a position of a list of tokens. -/
def parseOne (grammar : Grammar) (tokens : List Token) (position : Nat) (flags : Flags)
    (subject : Option Node) : Except ParseError (Option (Node × Place)) :=
  grammar.topReader flags subject (.ofTokens tokens position)

/-- Reads nodes from a position of a list of tokens on, up to its end or a terminator. -/
def parseAll (grammar : Grammar) (tokens : List Token) (position : Nat) (flags : Flags)
    (terminator : Option String) : Except ParseError (List Node × Place) :=
  readList grammar.topReader flags terminator (.ofTokens tokens position)

/-- Reads a whole program from its tokens. -/
def parseProgram (grammar : Grammar) (tokens : List Token) : Except ParseError (List Node) :=
  (grammar.parseAll tokens 0 .root none).map Prod.fst

/-- Reads a program from its source text. -/
def compile (grammar : Grammar) (source : String) : Except ParseError (List Node) :=
  match (tokenize source).tokens? with
  | .error error => .error (.lex error)
  | .ok tokens => grammar.parseProgram tokens

end Grammar

end ShaderSource
