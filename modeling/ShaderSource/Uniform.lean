import ShaderSource.Table
import ShaderSource.Text.LetterCase
import ShaderSource.Tree.Walker

/-!
# Uniforms

The host finds the uniforms of a shader under keys of its own. A key is the
name in the shader, without the `u` that marks it as a uniform: the mark is a
`u` before a capital letter, which becomes small. Names such as `u_time`, `u1`
and `uv` carry no mark.
-/

namespace ShaderSource

/-- The name and the type with which a uniform is declared in the shader. -/
structure UniformBinding where
  sourceName : String
  ty : String
  deriving DecidableEq, Repr

/-- The uniforms by key. -/
abbrev UniformTable : Type := Table UniformBinding

/-- The key of a uniform with a name. -/
def uniformKey (name : String) : String :=
  match name.toList with
  | 'u' :: letter :: rest =>
    if Text.isCapital letter then String.ofList (Text.smallForm letter ++ rest) else name
  | _ => name

/-- The key and the binding of a declaration of a uniform. -/
def declaredUniform? : Node → Option (String × UniformBinding)
  | .declaration (some .uniform) ty name _ => some (uniformKey name, ⟨name, ty⟩)
  | _ => none

/-- The table with the uniform that a node declares, if it declares one. -/
def registerUniform (node : Node) (table : UniformTable) : UniformTable :=
  match declaredUniform? node with
  | some (key, binding) => table.insert key binding
  | none => table

/-- Puts every declared uniform into a table that goes along as the state. -/
def uniformVisitor : Visitor UniformTable := fun node => do
  modify (registerUniform node)
  return .keep

/-- Walks through some trees and puts all uniforms that they declare into a table. A later
    one takes the place of an earlier one with the same key. -/
def registerUniforms (nodes : List Node) (table : UniformTable) : List Node × UniformTable :=
  (Walker.empty.on .declaration uniformVisitor).walk nodes table

end ShaderSource
