/-!
# Lines of a text

A line ends with a line feed, or with a carriage return and a line feed. What
follows the last line feed is a line only if it is not empty.
-/

namespace ShaderSource.Text

/-- The lines of a text without their ends. -/
def lines : List Char → List (List Char)
  | [] => []
  | '\n' :: rest => [] :: lines rest
  | '\r' :: '\n' :: rest => [] :: lines rest
  | char :: rest =>
    match lines rest with
    | [] => [[char]]
    | first :: others => (char :: first) :: others

/-- One step of indentation. -/
def indentation : String := "    "

/-- A text with every line set in by one step. -/
def indent (text : String) : String :=
  "\n".intercalate ((lines text.toList).map fun line => indentation ++ String.ofList line)

end ShaderSource.Text
