/-!
# Fields and occurrences

A text is cut into fields at a separator, and the occurrences of one text in
another are found and exchanged from the front to the back.
-/

namespace ShaderSource.Text

/-- The pieces of a text between the separators. There is one more than separators. -/
def fields (separator : Char) : List Char → List (List Char)
  | [] => [[]]
  | char :: rest =>
    if char = separator then [] :: fields separator rest
    else
      match fields separator rest with
      | [] => [[char]]
      | first :: others => (char :: first) :: others

/-- Whether a text occurs in another. -/
def occursIn (pattern : List Char) : List Char → Bool
  | [] => pattern.isEmpty
  | char :: rest => pattern.isPrefixOf (char :: rest) || occursIn pattern rest

/-- A text with another in place of each occurrence of a pattern. An occurrence that
    overlaps an earlier one does not count. The pattern is not empty. -/
def replaceAll (pattern replacement : List Char) (chars : List Char) : List Char :=
  match chars with
  | [] => []
  | char :: rest =>
    if pattern.isPrefixOf (char :: rest) then
      replacement ++ replaceAll pattern replacement (rest.drop (pattern.length - 1))
    else char :: replaceAll pattern replacement rest
termination_by chars.length
decreasing_by all_goals (simp only [List.length_cons, List.length_drop]; omega)

end ShaderSource.Text
