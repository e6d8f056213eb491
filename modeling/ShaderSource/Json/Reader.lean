import ShaderSource.Json.Basic
import ShaderSource.Span

/-!
# Reading JSON

A text is read as one JSON value, with nothing but blanks before and behind
it. The first thing that does not fit is reported with its line and its column,
both counted from the bytes read before it: a fault of the next character
counts that character too.

A number is scaled, not rounded once: its digits are taken as a whole number as
long as they fit into 64 bits, and the nearest binary number is multiplied or
divided by a power of ten. A number whose magnitude is beyond the largest one
is a fault.
-/

namespace ShaderSource

-- Powers of whole numbers are those of the core library, also under a richer algebra.
attribute [local instance (high)] instPowNat

/-- What does not fit in a JSON text. -/
inductive JsonFault where
  | endInList
  | endInObject
  | endInString
  | endInValue
  | expectedColon
  | expectedListEnd
  | expectedObjectEnd
  | expectedWord
  | expectedValue
  | invalidEscape
  | invalidNumber
  | numberOutOfRange
  | controlCharacter
  | expectedKey
  | loneSurrogate
  | endOfHexEscape
  | trailingComma
  | trailingCharacters
  | tooDeep
  /-- A value of another kind stands where one of the `expected` kind has to. -/
  | invalidType (found expected : String)
  /-- A value is none of those that are allowed, which have a name together. -/
  | noVariant (name : String)
  deriving DecidableEq, Repr

namespace JsonFault

def message : JsonFault → String
  | endInList => "EOF while parsing a list"
  | endInObject => "EOF while parsing an object"
  | endInString => "EOF while parsing a string"
  | endInValue => "EOF while parsing a value"
  | expectedColon => "expected `:`"
  | expectedListEnd => "expected `,` or `]`"
  | expectedObjectEnd => "expected `,` or `\x7d`"
  | expectedWord => "expected ident"
  | expectedValue => "expected value"
  | invalidEscape => "invalid escape"
  | invalidNumber => "invalid number"
  | numberOutOfRange => "number out of range"
  | controlCharacter => "control character (\\u0000-\\u001F) found while parsing a string"
  | expectedKey => "key must be a string"
  | loneSurrogate => "lone leading surrogate in hex escape"
  | endOfHexEscape => "unexpected end of hex escape"
  | trailingComma => "trailing comma"
  | trailingCharacters => "trailing characters"
  | tooDeep => "recursion limit exceeded"
  | invalidType found expected => "invalid type: " ++ found ++ ", expected " ++ expected
  | noVariant name => "data did not match any variant of untagged enum " ++ name

end JsonFault

/-- A fault with the number of bytes read before it. -/
structure JsonError where
  fault : JsonFault
  offset : Nat
  deriving DecidableEq, Repr

namespace JsonError

/-- The line and the column behind some bytes of a text: the line feeds before, and the
    bytes since the last of them. -/
def lineColumn : (line column : Nat) → (bytes : Nat) → List Char → Nat × Nat
  | line, column, _, [] => (line, column)
  | line, column, bytes, char :: rest =>
    if bytes < char.utf8Size then (line, column + bytes)
    else if char = '\n' then lineColumn (line + 1) 0 (bytes - 1) rest
    else lineColumn line (column + char.utf8Size) (bytes - char.utf8Size) rest

/-- The report of a fault in a text. -/
def message (error : JsonError) (text : String) : String :=
  let (line, column) := lineColumn 1 0 error.offset text.toList
  error.fault.message ++ " at line " ++ toString line ++ " column " ++ toString column

end JsonError

/-- A place in a JSON text. -/
structure JsonPlace where
  rest : List Char
  offset : Nat
  deriving DecidableEq, Repr

/-- A number of a JSON text: a whole one that fits into 64 bits, or any other. -/
inductive JsonNumber where
  | whole (value : Int)
  | real (value : Binary64)
  deriving DecidableEq

namespace JsonNumber

/-- The binary number nearest to a number. -/
def toBinary64 : JsonNumber → Binary64
  | whole value => .ofFraction (value < 0) value.natAbs 1
  | real value => value

end JsonNumber

namespace JsonPlace

/-- The outcome of reading something. -/
abbrev Reading (α : Type) : Type := Except JsonError (α × JsonPlace)

variable {α : Type}

/-- The place behind the next character. -/
def advance (place : JsonPlace) : JsonPlace :=
  match place.rest with
  | [] => place
  | char :: rest => ⟨rest, place.offset + char.utf8Size⟩

/-- A fault of what was read. -/
def faultBefore (place : JsonPlace) (fault : JsonFault) : JsonError := ⟨fault, place.offset⟩

/-- A fault of the next byte, if there is one. -/
def faultAt (place : JsonPlace) (fault : JsonFault) : JsonError :=
  ⟨fault, if place.rest.isEmpty then place.offset else place.offset + 1⟩

/-- Whether a character separates the parts of a JSON text. -/
def isSeparator (char : Char) : Bool :=
  char == ' ' || char == '\n' || char == '\t' || char == '\r'

/-- The place behind the characters with a property. -/
def skip (property : Char → Bool) (place : JsonPlace) : JsonPlace :=
  ⟨place.rest.dropWhile property,
    place.offset + utf8Length (place.rest.takeWhile property)⟩

def skipSeparators (place : JsonPlace) : JsonPlace := place.skip isSeparator

/-! ## Words and strings -/

/-- Takes the characters of a word. -/
def word (place : JsonPlace) : List Char → Except JsonError JsonPlace
  | [] => .ok place
  | expected :: letters =>
    match place.rest with
    | [] => .error (place.faultBefore .endInValue)
    | char :: _ =>
      if char = expected then place.advance.word letters
      else .error (place.advance.faultBefore .expectedWord)

/-- The value of a hexadecimal digit. -/
def hexDigit? (char : Char) : Option Nat :=
  if char.isDigit then some (char.toNat - '0'.toNat)
  else if 'a' ≤ char ∧ char ≤ 'f' then some (char.toNat - 'a'.toNat + 10)
  else if 'A' ≤ char ∧ char ≤ 'F' then some (char.toNat - 'A'.toNat + 10)
  else none

/-- Four hexadecimal digits. Their four bytes are taken even if they are none. -/
def hexUnit (place : JsonPlace) : Reading Nat :=
  match place.rest with
  | first :: second :: third :: fourth :: rest =>
    match [first, second, third, fourth].mapM hexDigit? with
    | some digits =>
      .ok (digits.foldl (fun value digit => 16 * value + digit) 0, ⟨rest, place.offset + 4⟩)
    | none => .error ⟨.invalidEscape, place.offset + 4⟩
  | rest =>
    let bytes := utf8Length rest
    if 4 ≤ bytes then .error ⟨.invalidEscape, place.offset + 4⟩
    else .error ⟨.endInString, place.offset + bytes⟩

/-- The character of a `\u` escape, which takes a second escape for a character that has
    two units. -/
def unicodeEscape (place : JsonPlace) : Reading Char :=
  match place.hexUnit with
  | .error error => .error error
  | .ok (unit, place) =>
    if 0xDC00 ≤ unit ∧ unit ≤ 0xDFFF then .error (place.faultBefore .loneSurrogate)
    else if 0xD800 ≤ unit ∧ unit ≤ 0xDBFF then
      match place.rest with
      | [] => .error (place.faultBefore .endInString)
      | ['\\'] => .error (place.advance.faultBefore .endInString)
      | '\\' :: 'u' :: _ =>
        match place.advance.advance.hexUnit with
        | .error error => .error error
        | .ok (second, place) =>
          if 0xDC00 ≤ second ∧ second ≤ 0xDFFF then
            .ok (Char.ofNat (0x10000 + 0x400 * (unit - 0xD800) + (second - 0xDC00)), place)
          else .error (place.faultBefore .loneSurrogate)
      | '\\' :: _ => .error ⟨.endOfHexEscape, place.offset + 2⟩
      | _ => .error ⟨.endOfHexEscape, place.offset + 1⟩
    else .ok (Char.ofNat unit, place)

/-- The character of an escape behind its backslash. -/
def escape (place : JsonPlace) : Reading Char :=
  match place.rest with
  | [] => .error (place.faultBefore .endInString)
  | char :: _ =>
    let after := place.advance
    match char with
    | '"' => .ok ('"', after)
    | '\\' => .ok ('\\', after)
    | '/' => .ok ('/', after)
    | 'b' => .ok ('\x08', after)
    | 'f' => .ok ('\x0c', after)
    | 'n' => .ok ('\n', after)
    | 'r' => .ok ('\r', after)
    | 't' => .ok ('\t', after)
    | 'u' => after.unicodeEscape
    | _ => .error ⟨.invalidEscape, place.offset + 1⟩

/-- The characters of a string behind its opening quote. -/
def stringTail (place : JsonPlace) : Reading (List Char) :=
  match _found : place.rest with
  | [] => .error (place.faultBefore .endInString)
  | '"' :: _ => .ok ([], place.advance)
  | '\\' :: _ =>
    match place.advance.escape with
    | .error error => .error error
    | .ok (char, after) =>
      if after.rest.length < place.rest.length then
        match after.stringTail with
        | .error error => .error error
        | .ok (chars, final) => .ok (char :: chars, final)
      else .error (after.faultBefore .invalidEscape)
  | char :: rest =>
    if char.toNat < 0x20 then .error (place.advance.faultBefore .controlCharacter)
    else
      match stringTail ⟨rest, place.offset + char.utf8Size⟩ with
      | .error error => .error error
      | .ok (chars, final) => .ok (char :: chars, final)
termination_by place.rest.length
decreasing_by
  · assumption
  · simp [_found]

/-! ## Numbers -/

/-- The greatest whole number of 64 bits. -/
def greatestSignificand : Nat := 2 ^ (64 : Nat) - 1

/-- The greatest exponent that is counted. -/
def greatestExponent : Nat := 2 ^ (31 : Nat) - 1

/-- The quotient or the product of a number and `10 ^ exponent`, the exponent being at most
    308. -/
def scaleOnce (number : Binary64) (exponent : Int) : Binary64 :=
  let power := Binary64.ofFraction false (10 ^ exponent.natAbs) 1
  match number, power with
  | .finite negative mantissa scale _, .finite _ mantissa' scale' _ =>
    let top := Binary64.numerator mantissa scale
    let bottom := Binary64.denominator scale
    let top' := Binary64.numerator mantissa' scale'
    let bottom' := Binary64.denominator scale'
    if 0 ≤ exponent then .ofFraction negative (top * top') (bottom * bottom')
    else .ofFraction negative (top * bottom') (bottom * top')
  | _, _ => number

/-- A significand scaled by a power of ten: nothing if it is out of range. A smaller power
    than `10 ^ (-308)` is taken in several steps, until the number is zero. -/
def scaled? (number : Binary64) (exponent : Int) : Option Binary64 :=
  if exponent.natAbs ≤ 308 then
    match scaleOnce number exponent with
    | .infinite _ => none
    | result => some result
  else if number = .zero false then some number
  else if 0 ≤ exponent then none
  else scaled? (scaleOnce number (-308)) (exponent + 308)
termination_by exponent.natAbs
decreasing_by omega

/-- The number of a sign, a significand and a power of ten. -/
def ofParts (place : JsonPlace) (negative : Bool) (significand : Nat) (exponent : Int) :
    Reading JsonNumber :=
  match scaled? (.ofFraction false significand 1) exponent with
  | none => .error (place.faultBefore .numberOutOfRange)
  | some number => .ok (.real (if negative then number.negate else number), place)

/-- Takes digits into a significand as long as it fits into 64 bits. The result holds the
    significand and the digits taken, and says whether a digit was left for its size. -/
def significandDigits (significand taken : Nat) : List Char → Nat × Nat × Bool
  | [] => (significand, taken, false)
  | char :: rest =>
    if char.isDigit then
      let next := 10 * significand + (char.toNat - '0'.toNat)
      if next ≤ greatestSignificand then significandDigits next (taken + 1) rest
      else (significand, taken, true)
    else (significand, taken, false)

/-- The place some digits further on. -/
def pastDigits (place : JsonPlace) (count : Nat) : JsonPlace :=
  ⟨place.rest.drop count, place.offset + count⟩

/-- The exponent of a number behind its mark. -/
def exponentTail (place : JsonPlace) (negative : Bool) (significand : Nat) (exponent : Int) :
    Reading JsonNumber :=
  let (down, place) :=
    match place.rest with
    | '+' :: _ => (false, place.advance)
    | '-' :: _ => (true, place.advance)
    | _ => (false, place)
  match place.rest with
  | [] => .error (place.faultBefore .endInValue)
  | char :: _ =>
    if !char.isDigit then .error ⟨.invalidNumber, place.offset + 1⟩
    else
      let (value, overflow) := exponentDigits 0 0 place.rest
      match overflow with
      | some count =>
        if significand ≠ 0 ∧ down = false then
          .error ((place.pastDigits count).faultBefore .numberOutOfRange)
        else .ok (.real (.zero negative), place.skip Char.isDigit)
      | none =>
        let shift : Int := value
        ofParts (place.skip Char.isDigit) negative significand
          (if down then exponent - shift else exponent + shift)
where
  /-- The value of the digits, or how many were taken when it became too great. -/
  exponentDigits (value taken : Nat) : List Char → Nat × Option Nat
    | [] => (value, none)
    | char :: rest =>
      if char.isDigit then
        let next := 10 * value + (char.toNat - '0'.toNat)
        if greatestExponent < next then (value, some (taken + 1))
        else exponentDigits next (taken + 1) rest
      else (value, none)

/-- What follows the digits of a number: an exponent or nothing. -/
def exponentPart (place : JsonPlace) (negative : Bool) (significand : Nat) (exponent : Int) :
    Reading JsonNumber :=
  match place.rest with
  | 'e' :: _ | 'E' :: _ => place.advance.exponentTail negative significand exponent
  | _ => ofParts place negative significand exponent

/-- The digits behind the point of a number, at least one, and what follows them. -/
def fractionPart (place : JsonPlace) (negative : Bool) (significand : Nat) (exponent : Int) :
    Reading JsonNumber :=
  let (significand, taken, full) := significandDigits significand 0 place.rest
  let after := place.pastDigits taken
  let exponent := exponent - taken
  if full then (after.skip Char.isDigit).exponentPart negative significand exponent
  else if taken = 0 then
    .error (after.faultAt (if after.rest.isEmpty then .endInValue else .invalidNumber))
  else after.exponentPart negative significand exponent

/-- The end of a number whose whole digits are read. -/
def wholeEnd (place : JsonPlace) (negative : Bool) (significand : Nat) : Reading JsonNumber :=
  match place.rest with
  | '.' :: _ => place.advance.fractionPart negative significand 0
  | 'e' :: _ | 'E' :: _ => place.advance.exponentTail negative significand 0
  | _ =>
    if !negative then .ok (.whole significand, place)
    else if significand = 0 ∨ 2 ^ (63 : Nat) < significand then
      .ok (.real (Binary64.ofFraction true significand 1), place)
    else .ok (.whole (-significand), place)

/-- The end of a number with more whole digits than fit into its significand. -/
def longEnd (place : JsonPlace) (negative : Bool) (significand : Nat) : Reading JsonNumber :=
  let left := (place.rest.takeWhile Char.isDigit).length
  let after := place.pastDigits left
  match after.rest with
  | '.' :: _ => after.advance.fractionPart negative significand left
  | _ => after.exponentPart negative significand left

/-- A number behind its sign. -/
def number (place : JsonPlace) (negative : Bool) : Reading JsonNumber :=
  match place.rest with
  | [] => .error (place.faultBefore .endInValue)
  | '0' :: rest =>
    match rest with
    | next :: _ =>
      if next.isDigit then .error (place.advance.faultAt .invalidNumber)
      else place.advance.wholeEnd negative 0
    | [] => place.advance.wholeEnd negative 0
  | char :: _ =>
    if char.isDigit then
      let (significand, taken, full) := significandDigits 0 0 place.rest
      let after := place.pastDigits taken
      if full then after.longEnd negative significand else after.wholeEnd negative significand
    else .error ⟨.invalidNumber, place.offset + 1⟩

/-! ## Values -/

/-- The items of an array behind its opening bracket, up to its closing one. -/
def items (value : JsonPlace → Reading Json) (first : Bool) (place : JsonPlace) :
    Reading (List Json) :=
  let start := place.skipSeparators
  match start.rest with
  | [] => .error (start.faultAt .endInList)
  | ']' :: _ => .ok ([], start)
  | char :: _ =>
    if !first && char ≠ ',' then .error (start.faultAt .expectedListEnd)
    else
      let next := if first then start else start.advance.skipSeparators
      match first, next.rest with
      | false, ']' :: _ => .error (next.faultAt .trailingComma)
      | false, [] => .error (next.faultAt .endInValue)
      | _, _ =>
        match value next with
        | .error error => .error error
        | .ok (item, after) =>
          if after.rest.length < place.rest.length then
            match items value false after with
            | .error error => .error error
            | .ok (others, final) => .ok (item :: others, final)
          else .error (after.faultAt .expectedValue)
termination_by place.rest.length

/-- The name of the next member of an object, or nothing at the closing brace. -/
def key? (first : Bool) (place : JsonPlace) : Reading (Option String) :=
  let start := place.skipSeparators
  match start.rest with
  | [] => .error (start.faultAt .endInObject)
  | '\x7d' :: _ => .ok (none, start)
  | char :: _ =>
    if !first && char ≠ ',' then .error (start.faultAt .expectedObjectEnd)
    else
      let next := if first then start else start.advance.skipSeparators
      match next.rest with
      | [] => .error (next.faultAt .endInValue)
      | '"' :: _ =>
        match next.advance.stringTail with
        | .error error => .error error
        | .ok (chars, after) => .ok (some (String.ofList chars), after)
      | '\x7d' :: _ => .error (next.faultAt .trailingComma)
      | _ => .error (next.faultAt .expectedKey)

/-- The colon behind the name of a member. -/
def colon (place : JsonPlace) : Except JsonError JsonPlace :=
  let start := place.skipSeparators
  match start.rest with
  | [] => .error (start.faultAt .endInObject)
  | ':' :: _ => .ok start.advance
  | _ => .error (start.faultAt .expectedColon)

/-- The members of an object behind its opening brace, up to its closing one. -/
def members (value : JsonPlace → Reading Json) (first : Bool) (place : JsonPlace) :
    Reading (List (String × Json)) :=
  match place.key? first with
  | .error error => .error error
  | .ok (none, after) => .ok ([], after)
  | .ok (some key, after) =>
    match after.colon with
    | .error error => .error error
    | .ok after =>
      match value after with
      | .error error => .error error
      | .ok (member, after) =>
        if after.rest.length < place.rest.length then
          match members value false after with
          | .error error => .error error
          | .ok (others, final) => .ok ((key, member) :: others, final)
        else .error (after.faultAt .expectedValue)
termination_by place.rest.length

/-- A value with a number of levels of arrays and objects that it may have. -/
def value : (levels : Nat) → JsonPlace → Reading Json
  | levels, place =>
    let start := place.skipSeparators
    match start.rest with
    | [] => .error (start.faultAt .endInValue)
    | 'n' :: _ => (start.advance.word ['u', 'l', 'l']).map fun after => (.null, after)
    | 't' :: _ => (start.advance.word ['r', 'u', 'e']).map fun after => (.bool true, after)
    | 'f' :: _ => (start.advance.word ['a', 'l', 's', 'e']).map fun after => (.bool false, after)
    | '"' :: _ =>
      start.advance.stringTail.map fun (chars, after) => (.string (String.ofList chars), after)
    | '-' :: _ => (start.advance.number true).map fun (number, after) =>
      (.number number.toBinary64, after)
    | '[' :: _ =>
      match levels with
      | 0 => .error (start.faultAt .tooDeep)
      | levels + 1 =>
        (start.advance.items (value levels) true).map fun (items, after) =>
          (.array items, after.advance)
    | '\x7b' :: _ =>
      match levels with
      | 0 => .error (start.faultAt .tooDeep)
      | levels + 1 =>
        (start.advance.members (value levels) true).map fun (members, after) =>
          (.object members, after.advance)
    | char :: _ =>
      if char.isDigit then
        (start.number false).map fun (number, after) => (.number number.toBinary64, after)
      else .error (start.faultAt .expectedValue)

/-- How many arrays and objects may stand inside one another. -/
def maxLevels : Nat := 127

/-- Nothing but separators is left. -/
def finish (place : JsonPlace) : Except JsonError Unit :=
  let final := place.skipSeparators
  if final.rest.isEmpty then .ok () else .error (final.faultAt .trailingCharacters)

end JsonPlace

end ShaderSource
