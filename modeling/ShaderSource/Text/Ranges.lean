/-!
# Ranges of characters

A class of characters is given as a list of ranges of their numbers, as the
tables of a character standard are.
-/

namespace ShaderSource.Text

/-- Whether a character is in one of some ranges, both ends of which are included. -/
def inRanges (ranges : List (Nat × Nat)) (char : Char) : Bool :=
  ranges.any fun (first, last) => first ≤ char.toNat && char.toNat ≤ last

end ShaderSource.Text
