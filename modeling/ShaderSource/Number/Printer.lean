import ShaderSource.Number.Reader

/-!
# Writing numbers as decimal text

A number is written with the fewest digits that are read back as the same
number, and of those with the nearest value; of two equally near ones the
greater is taken. The digits are written out in full, without a power of ten:
a whole number has no point, and zeros fill the places up to it.
-/

namespace ShaderSource.Binary64

-- Powers of whole numbers are those of the core library, also under a richer algebra.
attribute [local instance (high)] instPowNat

/-- The text of `digits * 10 ^ exponent`. -/
def positional (digits : Nat) (exponent : Int) : List Char :=
  let written := Nat.toDigits 10 (digits * 10 ^ exponent.toNat)
  let places := (-exponent).toNat
  if places = 0 then written
  else
    let padded := List.replicate (places + 1 - written.length) '0' ++ written
    padded.take (padded.length - places) ++ '.' :: padded.drop (padded.length - places)

/-- A power of ten that is not below a fraction, as an exponent: for the binary
    exponent `n` of the fraction it is the least whole number above
    `(n + 1) * log10 2`, or the next one. -/
def coarsestGrid (numerator denominator : Nat) : Int :=
  (leadingExponent numerator denominator + 1) * 30103 / 100000 + 1

/-- The multiples of `10 ^ exponent` beside a fraction, the nearer first. The greater
    is first if they are equally near. -/
def neighbours (numerator denominator : Nat) (exponent : Int) : List Nat :=
  let scaled := numerator * 10 ^ (-exponent).toNat
  let unit := denominator * 10 ^ exponent.toNat
  let below := scaled / unit
  if 2 * (scaled % unit) < unit then [below, below + 1] else [below + 1, below]

/-- The first text that `accepts` among the neighbours of a fraction, on grids of
    powers of ten from a coarse one to finer ones. -/
def firstText? (accepts : List Char → Bool) (numerator denominator : Nat) :
    (grids : Nat) → (exponent : Int) → Option (List Char)
  | 0, _ => none
  | grids + 1, exponent =>
    match ((neighbours numerator denominator exponent).map (positional · exponent)).find? accepts with
    | some text => some text
    | none => firstText? accepts numerator denominator grids (exponent - 1)

/-- The number of grids to try: seventeen digits tell all numbers apart, and the
    coarsest grid may lie a step or two above the first digit. -/
def gridCount : Nat := 20

/-- The exact text of a magnitude. Each halving takes one more place. -/
def exactText (mantissa : Nat) (exponent : Int) : List Char :=
  let halvings := (-exponent).toNat
  positional (mantissa * 2 ^ exponent.toNat * 5 ^ halvings) (-halvings)

/-- The text of a finite magnitude with the fewest digits. -/
def magnitudeText (mantissa : Nat) (exponent : Int)
    (canonical : CanonicalMagnitude mantissa exponent) : List Char :=
  if mantissa = 0 then ['0']
  else
    let top := numerator mantissa exponent
    let bottom := denominator exponent
    let readsBack := fun text =>
      decide (read? text = some (finite false mantissa exponent canonical))
    (firstText? readsBack top bottom gridCount (coarsestGrid top bottom)).getD
      (exactText mantissa exponent)

/-- The text of a number. -/
def toChars : Binary64 → List Char
  | nan => ['N', 'a', 'N']
  | infinite negative => (if negative then ['-'] else []) ++ ['i', 'n', 'f']
  | finite negative mantissa exponent canonical =>
    (if negative then ['-'] else []) ++ magnitudeText mantissa exponent canonical

/-- The text of a number. -/
def render (number : Binary64) : String := String.ofList number.toChars

end ShaderSource.Binary64
