import ShaderSource.Number.Printer
import ShaderSource.Text.Blank
import ShaderSource.Text.Fields

/-!
# Host values and their literals

The host of a shader supplies numbers and lists of numbers. A value becomes a
literal of one of the types that the language has literals for: a whole number
without its fraction, a number with a decimal point, or the constructor call of
a vector with as many components as the type asks for.
-/

namespace ShaderSource

-- Powers of whole numbers are those of the core library, also under a richer algebra.
attribute [local instance (high)] instPowNat

/-- The types that a host value can be written as. -/
inductive LiteralType where
  | int
  | float
  | vec (size : Nat)
  | ivec (size : Nat)
  deriving DecidableEq, Repr

/-- A value supplied by the host. -/
inductive HostValue where
  | scalar (number : Binary64)
  | vector (numbers : List Binary64)
  deriving DecidableEq

/-- Why a value has no literal, or a text no value. -/
inductive LiteralError where
  /-- No literals are written with the type of this name. -/
  | unsupportedType (name : String)
  /-- The text is neither a number nor a list of numbers. -/
  | invalidValue (text : String)
  | expectedScalar (ty : LiteralType) (components : Nat)
  | expectedVector (ty : LiteralType)
  | componentCount (ty : LiteralType) (components : Nat)
  | notFinite (number : Binary64)
  deriving DecidableEq

namespace LiteralType

/-- The name of a type in a source text. -/
def name : LiteralType → String
  | int => "int"
  | float => "float"
  | vec size => "vec" ++ toString size
  | ivec size => "ivec" ++ toString size

/-- The number of components, one for a scalar. -/
def size : LiteralType → Nat
  | int | float => 1
  | vec size | ivec size => size

/-- The types that the language names. -/
def all : List LiteralType := [int, float, vec 2, vec 3, vec 4, ivec 2, ivec 3, ivec 4]

/-- The type with a name. -/
def ofName (text : String) : Except LiteralError LiteralType :=
  match all.find? (fun ty => ty.name == text) with
  | some ty => .ok ty
  | none => .error (.unsupportedType text)

end LiteralType

namespace LiteralError

/-- The report of an error in words. -/
def message : LiteralError → String
  | unsupportedType name => "type `" ++ name ++ "` has no literal form"
  | invalidValue text =>
    "invalid value `" ++ text ++ "`, expected a number or comma-separated numbers"
  | expectedScalar ty components =>
    "`" ++ ty.name ++ "` is a scalar type, found a vector of " ++ toString components ++
      " components"
  | expectedVector ty => "`" ++ ty.name ++ "` is a vector type, found a scalar"
  | componentCount ty components =>
    "`" ++ ty.name ++ "` has " ++ toString ty.size ++ " components, found " ++
      toString components
  | notFinite number => number.render ++ " is not a finite number"

end LiteralError

namespace HostValue

/-- What stands between a bracket at each end of a text. -/
def unbracketed? (chars : List Char) : Option (List Char) :=
  match chars with
  | '[' :: rest => if rest.getLast? = some ']' then some rest.dropLast else none
  | _ => none

/-- The value that a text writes: one number, or numbers with commas between them. A list
    may stand in brackets, and has to if it holds one number only. Blanks may stand around
    the whole and around each number. -/
def ofText (text : String) : Except LiteralError HostValue :=
  let trimmed := Text.trim text.toList
  let value? :=
    match unbracketed? trimmed with
    | some inner => vector? inner
    | none =>
      if trimmed.contains ',' then vector? trimmed
      else (Binary64.read? trimmed).map scalar
  match value? with
  | some value => .ok value
  | none => .error (.invalidValue text)
where
  vector? (chars : List Char) : Option HostValue :=
    ((Text.fields ',' chars).mapM fun number => Binary64.read? (Text.trim number)).map vector

end HostValue

/-- The number of a scalar, which has to be finite. -/
def finiteScalar (ty : LiteralType) : HostValue → Except LiteralError Binary64
  | .scalar number => if number.isFinite then .ok number else .error (.notFinite number)
  | .vector numbers => .error (.expectedScalar ty numbers.length)

/-- The numbers of a vector, as many as the type has components and all of them finite. -/
def finiteComponents (ty : LiteralType) : HostValue → Except LiteralError (List Binary64)
  | .scalar _ => .error (.expectedVector ty)
  | .vector numbers =>
    if numbers.length = ty.size then
      match numbers.find? (fun number => !number.isFinite) with
      | some number => .error (.notFinite number)
      | none => .ok numbers
    else .error (.componentCount ty numbers.length)

/-- The least whole number that a whole literal can have. -/
def leastWhole : Int := -2 ^ (63 : Nat)

/-- The greatest whole number that a whole literal can have. -/
def greatestWhole : Int := 2 ^ (63 : Nat) - 1

/-- A number without its fraction. What lies beyond the whole literals becomes the nearest
    of them. -/
def wholeLiteral : Binary64 → String
  | .finite negative mantissa exponent _ =>
    toString (max leastWhole (min greatestWhole (Binary64.wholePart negative mantissa exponent)))
  | .infinite true => toString leastWhole
  | .infinite false => toString greatestWhole
  | .nan => "0"

/-- A number with a decimal point. -/
def pointLiteral (number : Binary64) : String :=
  match number with
  | .finite _ mantissa exponent _ =>
    if Binary64.isWhole mantissa exponent then number.render ++ ".0" else number.render
  | _ => number.render

/-- The call of the constructor of a vector type. -/
def constructorCall (ty : LiteralType) (components : List String) : String :=
  ty.name ++ "(" ++ ", ".intercalate components ++ ")"

/-- Writes a value as a literal. A value of the wrong shape is refused before its numbers
    are looked at. -/
def renderLiteral (value : HostValue) (ty : LiteralType) : Except LiteralError String :=
  match ty with
  | .int => (finiteScalar ty value).map wholeLiteral
  | .float => (finiteScalar ty value).map pointLiteral
  | .vec _ => (finiteComponents ty value).map fun numbers =>
    constructorCall ty (numbers.map Binary64.render)
  | .ivec _ => (finiteComponents ty value).map fun numbers =>
    constructorCall ty (numbers.map wholeLiteral)

end ShaderSource
