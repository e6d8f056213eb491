/-!
# Places in a source text

A place is counted in bytes of the UTF-8 text, so that it can be handed to an
editor or a terminal as it is. A span is a half-open range of places.
-/

namespace ShaderSource

-- The empty sum is the zero of the core library, also under a richer algebra.
attribute [local instance (high)] Zero.ofOfNat0

/-- A half-open range of byte offsets in a source text. -/
structure Span where
  start : Nat
  stop : Nat
  deriving DecidableEq, Repr, Inhabited

namespace Span

/-- The empty span at a place. -/
def empty (offset : Nat) : Span := ⟨offset, offset⟩

/-- From the start of the first span to the end of the second. -/
def through (first last : Span) : Span := ⟨first.start, last.stop⟩

end Span

/-- The number of bytes that some characters take in UTF-8. -/
def utf8Length (chars : List Char) : Nat := (chars.map Char.utf8Size).sum

@[simp] theorem utf8Length_nil : utf8Length [] = 0 := rfl

@[simp] theorem utf8Length_cons (char : Char) (chars : List Char) :
    utf8Length (char :: chars) = char.utf8Size + utf8Length chars := by
  simp [utf8Length]

@[simp] theorem utf8Length_append (left right : List Char) :
    utf8Length (left ++ right) = utf8Length left + utf8Length right := by
  simp [utf8Length]

end ShaderSource
