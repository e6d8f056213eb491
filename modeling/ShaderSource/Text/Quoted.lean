import ShaderSource.Text.Unseen

/-!
# Quoted texts

A text is quoted so that it can be read in a report: a quotation mark and a
backslash get a backslash before them, the usual control characters have a
letter, and any other character that cannot be seen by itself is written as its
number.
-/

namespace ShaderSource.Text

/-- The number of a character in base sixteen. -/
def hexNumber (char : Char) : List Char := Nat.toDigits 16 char.toNat

/-- A character of a quoted text. -/
def quotedChar : Char → List Char
  | '"' => ['\\', '"']
  | '\\' => ['\\', '\\']
  | '\n' => ['\\', 'n']
  | '\r' => ['\\', 'r']
  | '\t' => ['\\', 't']
  | '\x00' => ['\\', '0']
  | char =>
    if isUnseen char then ['\\', 'u', '\x7b'] ++ hexNumber char ++ ['\x7d'] else [char]

/-- A text in quotation marks. -/
def quoted (text : String) : String :=
  String.ofList ('"' :: text.toList.flatMap quotedChar ++ ['"'])

end ShaderSource.Text
