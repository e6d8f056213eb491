import ShaderSource.Json.Reader
import ShaderSource.Placeholder
import ShaderSource.Text.Quoted

/-!
# Files of host values

The values of a host can be given as a JSON object, each member a number or an
array of numbers under the name of the value. Of several members with one name
the last one counts, but each of them has to be a value.
-/

namespace ShaderSource

namespace HostValue

def number? : Json → Option Binary64
  | .number number => some number
  | _ => none

/-- The value of a number or an array of numbers. -/
def ofJson? : Json → Option HostValue
  | .number number => some (.scalar number)
  | .array items => (items.mapM number?).map .vector
  | _ => none

end HostValue

namespace DataFile

open JsonPlace

/-- What a file has to hold. -/
def expectedObject : String := "a map"

/-- The name of the values that a member can have. -/
def valueName : String := "ConstValue"

/-- The place at which the object with a refused member is left: its closing brace is
    taken if it comes next. -/
def leaveObject (place : JsonPlace) : JsonPlace :=
  let start := place.skipSeparators
  match start.rest with
  | '\x7d' :: _ => start.advance
  | _ => start

/-- The values of an object behind its opening brace. -/
def readValues (first : Bool) (place : JsonPlace) : Reading (List (String × HostValue)) :=
  match place.key? first with
  | .error error => .error error
  | .ok (none, after) => .ok ([], after.advance)
  | .ok (some key, after) =>
    match after.colon with
    | .error error => .error error
    | .ok after =>
      match value (maxLevels - 1) after with
      | .error error => .error error
      | .ok (member, after) =>
        match HostValue.ofJson? member with
        | none => .error ((leaveObject after).faultBefore (.noVariant valueName))
        | some member =>
          if after.rest.length < place.rest.length then
            match readValues false after with
            | .error error => .error error
            | .ok (others, final) => .ok ((key, member) :: others, final)
          else .error (after.faultAt .expectedValue)
termination_by place.rest.length

/-- A JSON value of another kind, as it is named in a report. -/
def describe : JsonNumber → String
  | .whole value => "integer `" ++ toString value ++ "`"
  | .real value => "floating point `" ++ pointLiteral value ++ "`"

/-- The fault of a text that is no object. A word, a number or a string is read first, and
    a fault in it is reported instead. -/
def notObject (start : JsonPlace) : JsonError :=
  let refuse (found : String) (place : JsonPlace) : JsonError :=
    place.faultBefore (.invalidType found expectedObject)
  match start.rest with
  | [] => start.faultAt .endInValue
  | 'n' :: _ =>
    match start.advance.word ['u', 'l', 'l'] with
    | .error error => error
    | .ok after => refuse "null" after
  | 't' :: _ =>
    match start.advance.word ['r', 'u', 'e'] with
    | .error error => error
    | .ok after => refuse "boolean `true`" after
  | 'f' :: _ =>
    match start.advance.word ['a', 'l', 's', 'e'] with
    | .error error => error
    | .ok after => refuse "boolean `false`" after
  | '-' :: _ =>
    match start.advance.number true with
    | .error error => error
    | .ok (number, after) => refuse (describe number) after
  | '"' :: _ =>
    match start.advance.stringTail with
    | .error error => error
    | .ok (chars, after) => refuse ("string " ++ Text.quoted (String.ofList chars)) after
  | '[' :: _ => refuse "sequence" start
  | char :: _ =>
    if char.isDigit then
      match start.number false with
      | .error error => error
      | .ok (number, after) => refuse (describe number) after
    else start.faultAt .expectedValue

/-- The values that a text holds. -/
def read (text : String) : Except JsonError DataTable :=
  let start := (⟨text.toList, 0⟩ : JsonPlace).skipSeparators
  match start.rest with
  | '\x7b' :: _ =>
    match readValues true start.advance with
    | .error error => .error error
    | .ok (values, after) => (after.finish).map fun _ => .ofList values
  | _ => .error (notObject start)

end DataFile

end ShaderSource
