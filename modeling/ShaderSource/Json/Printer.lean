import ShaderSource.Json.Basic
import ShaderSource.Number.Printer
import ShaderSource.Text.Quoted

/-!
# Writing JSON texts

Each item of an array and each member of an object stands on a line of its own,
set in by two spaces from what holds it; without items both stay on one line.
-/

namespace ShaderSource.Json

/-- The last two digits of a control character in base sixteen. -/
def controlDigits (char : Char) : List Char :=
  (if char.toNat < 16 then ['0'] else []) ++ Text.hexNumber char

/-- A character of a string. Only the quotation mark, the backslash and the control
    characters up to the space are escaped. -/
def stringChar : Char → List Char
  | '"' => ['\\', '"']
  | '\\' => ['\\', '\\']
  | '\x08' => ['\\', 'b']
  | '\x0c' => ['\\', 'f']
  | '\n' => ['\\', 'n']
  | '\r' => ['\\', 'r']
  | '\t' => ['\\', 't']
  | char =>
    if char.toNat < 0x20 then ['\\', 'u', '0', '0'] ++ controlDigits char else [char]

/-- A string as it is written. -/
def renderString (text : String) : String :=
  String.ofList ('"' :: text.toList.flatMap stringChar ++ ['"'])

/-- The beginning of a line at some depth. -/
def margin (depth : Nat) : String := String.ofList (List.replicate (2 * depth) ' ')

/-- The texts of some parts between brackets, each on a line of its own. -/
def enclose (depth : Nat) (opening closing : String) (parts : List String) : String :=
  if parts.isEmpty then opening ++ closing
  else
    opening ++ "\n" ++ ",\n".intercalate (parts.map fun part => margin (depth + 1) ++ part) ++
      "\n" ++ margin depth ++ closing

mutual

/-- The text of a value whose first line is already begun, at some depth. -/
def print (depth : Nat) : Json → String
  | null => "null"
  | bool value => toString value
  | number value => value.render
  | string text => renderString text
  | array items => enclose depth "[" "]" (printItems (depth + 1) items)
  | object members => enclose depth "\x7b" "\x7d" (printMembers (depth + 1) members)

/-- The texts of some items. -/
def printItems (depth : Nat) : List Json → List String
  | [] => []
  | item :: items => item.print depth :: printItems depth items

/-- The texts of some members. -/
def printMembers (depth : Nat) : List (String × Json) → List String
  | [] => []
  | (name, value) :: members =>
    (renderString name ++ ": " ++ value.print depth) :: printMembers depth members

end

/-- The text of a value. -/
def render (json : Json) : String := json.print 0

end ShaderSource.Json
