import ShaderSource.Grammar.Place
import ShaderSource.Tree.Node

/-!
# Attempts to read a node

A rule builds its node from the tokens at a place, with the help of nodes that
are read one level deeper. An attempt may find that the tokens do not fit it:
then the next rule is tried from the same place. A failure of a nested list,
or of nesting itself, is final instead and ends the whole reading.

A repeated part is read as long as it advances. This is what bounds every
repetition: the tokens behind the place become fewer with each round.
-/

namespace ShaderSource

/-- Why an attempt built no node. -/
inductive Reject where
  /-- The tokens do not fit. -/
  | mismatch
  /-- No other rule may be tried. -/
  | fatal (error : ParseError)

/-- A reader of one node in some contexts, written behind a subject if there is one. It
    gives the node and the place behind it, or nothing if no rule fits. -/
abbrev NodeReader : Type :=
  Flags → Option Node → Place → Except ParseError (Option (Node × Place))

/-- The surroundings of an attempt. -/
structure Setting where
  /-- The contexts being read. -/
  flags : Flags
  /-- The value behind which the node is written. -/
  subject : Option Node
  /-- The number of readers around this attempt. -/
  depth : Nat
  /-- The reader of the next level. -/
  nested : NodeReader

/-- An attempt to read something at a place. -/
abbrev Attempt (α : Type) : Type := ReaderT Setting (StateT Place (Except Reject)) α

namespace Token

def hasText (text : String) (token : Token) : Bool := token.text == text

def hasTextAmong (texts : List String) (token : Token) : Bool := texts.contains token.text

def hasKind (kind : TokenKind) (token : Token) : Bool := token.kind == kind

end Token

namespace Attempt

variable {α σ : Type}

/-- The tokens do not fit. -/
def mismatch : Attempt α := fun _ _ => .error .mismatch

/-- The contexts being read. -/
def flags : Attempt Flags := fun setting place => .ok (setting.flags, place)

/-- The number of readers around this attempt. -/
def depth : Attempt Nat := fun setting place => .ok (setting.depth, place)

/-- The number of tokens before the place. -/
def position : Attempt Nat := fun _ place => .ok (place.index, place)

/-- The value behind which the node is written. Only what is written behind a value has
    one. -/
def subject : Attempt Node := fun setting place =>
  match setting.subject with
  | some node => .ok (node, place)
  | none => .error .mismatch

/-- The value behind which the node is written, if there is one. -/
def subject? : Attempt (Option Node) := fun setting place => .ok (setting.subject, place)

/-- The next token, which is left where it is. -/
def peek? : Attempt (Option Token) := fun _ place => .ok (place.rest.head?, place)

/-- Whether no tokens are left. -/
def atEnd : Attempt Bool := fun _ place => .ok (place.rest.isEmpty, place)

/-- Whether there is a next token and it has a property. -/
def nextMatches (pattern : Token → Bool) : Attempt Bool := fun _ place =>
  .ok (place.rest.head?.any pattern, place)

/-- Takes the next token if it has a property. -/
def token? (pattern : Token → Bool) : Attempt (Option Token) := fun _ place =>
  match place.rest with
  | token :: _ => if pattern token then .ok (some token, place.advance) else .ok (none, place)
  | [] => .ok (none, place)

/-- Takes the next token, which has to have a property. -/
def token (pattern : Token → Bool) : Attempt Token := fun _ place =>
  match place.rest with
  | token :: _ => if pattern token then .ok (token, place.advance) else .error .mismatch
  | [] => .error .mismatch

/-- Takes the next token under a condition, otherwise nothing. -/
def tokenIf (condition : Bool) (pattern : Token → Bool) : Attempt (Option Token) :=
  if condition then some <$> token pattern else pure none

/-- The tokens do not fit unless a condition holds. -/
def validate (condition : Bool) : Attempt Unit := fun _ place =>
  if condition then .ok ((), place) else .error .mismatch

/-- The word with the spelling of a token; without one the tokens do not fit. -/
def spelled (word : Except SpellingError α) : Attempt α := fun _ place =>
  match word with
  | .ok word => .ok (word, place)
  | .error _ => .error .mismatch

/-- Reads a node in other contexts. -/
def node (flags : Flags) : Attempt Node := fun setting place =>
  match setting.nested flags none place with
  | .ok (some (node, after)) => .ok (node, after)
  | .ok none => .error .mismatch
  | .error error => .error (.fatal error)

/-- Reads what is written behind a value, if anything fits. -/
def trailing? (value : Node) : Attempt (Option Node) := fun setting place =>
  match setting.nested .trailing (some value) place with
  | .ok (some (node, after)) => .ok (some node, after)
  | .ok none => .ok (none, place)
  | .error error => .error (.fatal error)

end Attempt

/-- Reads nodes as long as they advance. -/
def readNodes (reader : NodeReader) (flags : Flags) (place : Place) :
    Except ParseError (List Node × Place) :=
  match reader flags none place with
  | .error error => .error error
  | .ok none => .ok ([], place)
  | .ok (some (node, after)) =>
    if after.rest.length < place.rest.length then
      match readNodes reader flags after with
      | .error error => .error error
      | .ok (nodes, final) => .ok (node :: nodes, final)
    else .ok ([], place)
termination_by place.rest.length

/-- Reads a list of nodes. It has to reach the end of the tokens or a token with the text
    of the terminator, which is left where it is. -/
def readList (reader : NodeReader) (flags : Flags) (terminator : Option String) (place : Place) :
    Except ParseError (List Node × Place) :=
  match readNodes reader flags place with
  | .error error => .error error
  | .ok (nodes, after) =>
    match after.rest with
    | [] => .ok (nodes, after)
    | token :: _ =>
      if terminator = some token.text then .ok (nodes, after)
      else .error (.tokens (after.unexpected flags terminator))

namespace Attempt

variable {σ : Type}

/-- Reads nodes up to a token with the text of the terminator. -/
def nodes (flags : Flags) (terminator : String) : Attempt (List Node) := fun setting place =>
  match readList setting.nested flags (some terminator) place with
  | .ok (nodes, after) => .ok (nodes, after)
  | .error error => .error (.fatal error)

/-- Repeats a part as long as the place has a property. The part is given the number of
    rounds before it and what they made. A round that does not advance is the last. -/
def repeatWhen (going : Place → Bool) (part : Nat → σ → Attempt σ) (rounds : Nat) (made : σ) :
    Attempt σ := fun setting place =>
  if going place then
    match part rounds made setting place with
    | .error reject => .error reject
    | .ok (made, after) =>
      if after.rest.length < place.rest.length then
        repeatWhen going part (rounds + 1) made setting after
      else .ok (made, after)
  else .ok (made, place)
termination_by _ place => place.rest.length

/-- Repeats a part up to a token with a property, or to the end of the tokens. -/
def repeatUntil (pattern : Token → Bool) (part : Nat → σ → Attempt σ) (start : σ) : Attempt σ :=
  repeatWhen (fun place => place.rest.head?.any (!pattern ·)) part 0 start

/-- Repeats a part as long as the next token has a property. -/
def repeatWhile (pattern : Token → Bool) (part : Nat → σ → Attempt σ) (start : σ) : Attempt σ :=
  repeatWhen (fun place => place.rest.head?.any pattern) part 0 start

/-- A value with everything that is written behind it. -/
def trailingChain (value : Node) : Attempt Node := fun setting place =>
  match trailing? value setting place with
  | .error reject => .error reject
  | .ok (none, after) => .ok (value, after)
  | .ok (some longer, after) =>
    if after.rest.length < place.rest.length then trailingChain longer setting after
    else .ok (longer, after)
termination_by _ place => place.rest.length

end Attempt

end ShaderSource
