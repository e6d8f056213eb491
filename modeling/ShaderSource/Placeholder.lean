import ShaderSource.Literal
import ShaderSource.Table

/-!
# Placeholders

A source text may hold names between dollar signs. Those for which a literal
type is known and the host has a value are exchanged for the literal, before
the text is read as a program. A name that does not occur is not written as a
literal at all, so it causes no error.
-/

namespace ShaderSource

/-- The literal types of placeholders by name. -/
abbrev PlaceholderTable : Type := Table LiteralType

/-- The values of the host by name. -/
abbrev DataTable : Type := Table HostValue

/-- The text of a placeholder. -/
def placeholder (name : String) : List Char := '$' :: name.toList ++ ['$']

/-- Exchanges every occurrence of one placeholder for the literal of its value. -/
def substitutePlaceholder (data : DataTable) (name : String) (ty : LiteralType)
    (chars : List Char) : Except LiteralError (List Char) :=
  match data.find? name with
  | none => .ok chars
  | some value =>
    if Text.occursIn (placeholder name) chars then
      (renderLiteral value ty).map fun literal =>
        Text.replaceAll (placeholder name) literal.toList chars
    else .ok chars

/-- Exchanges some placeholders in turn. -/
def substituteInOrder (data : DataTable) (types : List (String × LiteralType))
    (chars : List Char) : Except LiteralError (List Char) :=
  types.foldlM (fun chars (name, ty) => substitutePlaceholder data name ty chars) chars

/-- Exchanges the placeholders of a source text for the literals of their values. -/
def substitutePlaceholders (source : String) (data : DataTable) (types : PlaceholderTable) :
    Except LiteralError String :=
  (substituteInOrder data types.entries source.toList).map String.ofList

end ShaderSource
