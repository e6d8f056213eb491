import ShaderSource.Number.Binary64

/-!
# Reading numbers from decimal text

A number text is an optional sign and then digits with at most one point among
or beside them, followed by an optional power of ten. In place of the digits
the words `inf`, `infinity` and `nan` may stand, in small or capital letters.
The number is the one nearest to the decimal value.
-/

namespace ShaderSource.Binary64

/-- The value of some decimal digits, added behind the digits of `before`. -/
def digitsValue (before : Nat) (digits : List Char) : Nat :=
  digits.foldl (fun value digit => 10 * value + (digit.toNat - '0'.toNat)) before

/-- The sign in front of a text, `true` for a minus sign, and what follows it. -/
def readSign : List Char → Bool × List Char
  | '-' :: rest => (true, rest)
  | '+' :: rest => (false, rest)
  | chars => (false, chars)

/-- The power of ten behind the digits of a number, zero if there is none. -/
def readExponent? : List Char → Option Int
  | [] => some 0
  | mark :: rest =>
    if mark = 'e' ∨ mark = 'E' then
      let (negative, digits) := readSign rest
      if digits.isEmpty || !digits.all Char.isDigit then none
      else
        let value : Int := digitsValue 0 digits
        some (if negative then -value else value)
    else none

/-- A number without a sign before it; `negative` is the sign that it gets. -/
def readUnsigned? (negative : Bool) (chars : List Char) : Option Binary64 :=
  let word := String.ofList (chars.map Char.toLower)
  if word = "inf" ∨ word = "infinity" then some (infinite negative)
  else if word = "nan" then some nan
  else
    let whole := chars.takeWhile Char.isDigit
    let behind := chars.dropWhile Char.isDigit
    let (fraction, power) :=
      match behind with
      | '.' :: rest => (rest.takeWhile Char.isDigit, rest.dropWhile Char.isDigit)
      | _ => ([], behind)
    if whole.isEmpty && fraction.isEmpty then none
    else
      (readExponent? power).map fun exponent =>
        ofDecimal negative (digitsValue (digitsValue 0 whole) fraction)
          (exponent - fraction.length)

/-- The number that a text writes. -/
def read? (chars : List Char) : Option Binary64 :=
  let (negative, rest) := readSign chars
  readUnsigned? negative rest

end ShaderSource.Binary64
