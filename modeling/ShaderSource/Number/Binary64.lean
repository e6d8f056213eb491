/-!
# Binary floating point numbers of 64 bits

A finite number is a sign, a whole mantissa of at most 53 bits and a power of
two. Of the ways to write a number so, one is canonical: the mantissa has all
53 bits, or the exponent is the least one. The type admits only this one, so
two numbers are equal exactly if they have the same sign and value; the two
zeros differ.

A fraction of whole numbers is rounded to the nearest number, and of two that
are equally near to the one with an even mantissa. A fraction beyond the
largest number becomes infinite.
-/

namespace ShaderSource

-- Powers of whole numbers are those of the core library, also under a richer algebra.
attribute [local instance (high)] instPowNat

/-- The one way to write a finite magnitude that numbers use. -/
def CanonicalMagnitude (mantissa : Nat) (exponent : Int) : Prop :=
  mantissa < 2 ^ (53 : Nat) ∧ -1074 ≤ exponent ∧ exponent ≤ 971 ∧
    (2 ^ (52 : Nat) ≤ mantissa ∨ exponent = -1074)

instance (mantissa : Nat) (exponent : Int) : Decidable (CanonicalMagnitude mantissa exponent) := by
  unfold CanonicalMagnitude
  infer_instance

/-- A binary floating point number of 64 bits. All the undefined results are one
    value. -/
inductive Binary64 where
  | nan
  | infinite (negative : Bool)
  | finite (negative : Bool) (mantissa : Nat) (exponent : Int)
      (canonical : CanonicalMagnitude mantissa exponent)
  deriving DecidableEq

namespace Binary64

/-- The zero of a sign. -/
def zero (negative : Bool) : Binary64 :=
  .finite negative 0 (-1074) (by unfold CanonicalMagnitude; omega)

instance : Inhabited Binary64 := ⟨zero false⟩

def isFinite : Binary64 → Bool
  | finite .. => true
  | _ => false

/-- The opposite number. -/
def negate : Binary64 → Binary64
  | nan => nan
  | infinite negative => infinite !negative
  | finite negative mantissa exponent canonical => finite (!negative) mantissa exponent canonical

/-- The whole number nearest to a fraction, of two equally near ones the even one. -/
def roundedQuotient (numerator denominator : Nat) : Nat :=
  let quotient := numerator / denominator
  let remainder := numerator % denominator
  if 2 * remainder < denominator ∨ (2 * remainder = denominator ∧ quotient % 2 = 0) then quotient
  else quotient + 1

/-- The numerator of a magnitude as a fraction of whole numbers. -/
def numerator (mantissa : Nat) (exponent : Int) : Nat := mantissa * 2 ^ exponent.toNat

/-- The denominator of a magnitude as a fraction of whole numbers. -/
def denominator (exponent : Int) : Nat := 2 ^ (-exponent).toNat

/-- The exponent of the greatest power of two that is not above a fraction. -/
def leadingExponent (numerator denominator : Nat) : Int :=
  let guess := (numerator.log2 : Int) - denominator.log2
  if denominator * 2 ^ guess.toNat ≤ numerator * 2 ^ (-guess).toNat then guess else guess - 1

/-- The number nearest to a fraction, with a sign. -/
def ofFraction (negative : Bool) (numerator denominator : Nat) : Binary64 :=
  if numerator = 0 then zero negative
  else
    let exponent := max (leadingExponent numerator denominator - 52) (-1074)
    let rounded :=
      roundedQuotient (numerator * 2 ^ (-exponent).toNat) (denominator * 2 ^ exponent.toNat)
    let (mantissa, exponent) :=
      if rounded = 2 ^ (53 : Nat) then (2 ^ (52 : Nat), exponent + 1) else (rounded, exponent)
    if canonical : CanonicalMagnitude mantissa exponent then
      finite negative mantissa exponent canonical
    else infinite negative

/-- The number of decimal digits of a whole number. -/
def digitCount (value : Nat) : Nat := (Nat.toDigits 10 value).length

/-- The number nearest to `digits * 10 ^ exponent`, with a sign.

    From `10 ^ 310` on every value is infinite, and below `10 ^ (-330)` every
    value is zero; the exponent is not used as a power there. -/
def ofDecimal (negative : Bool) (digits : Nat) (exponent : Int) : Binary64 :=
  if digits = 0 then zero negative
  else
    let magnitude := exponent + digitCount digits
    if 310 < magnitude then infinite negative
    else if magnitude < -330 then zero negative
    else ofFraction negative (digits * 10 ^ exponent.toNat) (10 ^ (-exponent).toNat)

/-- The whole part of a finite number, without its fraction. -/
def wholePart (negative : Bool) (mantissa : Nat) (exponent : Int) : Int :=
  let magnitude := numerator mantissa exponent / denominator exponent
  if negative then -magnitude else magnitude

/-- Whether a finite magnitude has no fraction. -/
def isWhole (mantissa : Nat) (exponent : Int) : Bool :=
  numerator mantissa exponent % denominator exponent == 0

end Binary64

end ShaderSource
