import ShaderSource.Placeholder
import ShaderSource.Tree.Walker

/-!
# Constants without a value

A constant that is declared without a value takes the value that the host has
under its name, as a literal of the declared type. Other declarations stay as
they are, and so does a constant for which the host has no value.
-/

namespace ShaderSource

/-- The literal for a constant without a value of its own. Without a value of the host
    there is none. -/
def constantLiteral (ty name : String) (data : DataTable) : Except LiteralError (Option String) :=
  match data.find? name with
  | none => .ok none
  | some value =>
    match LiteralType.ofName ty with
    | .error error => .error error
    | .ok ty => (renderLiteral value ty).map some

/-- A node with the value of the host, if it declares a constant that lacks one; nothing if
    it stays as it is. -/
def substituteConstant (node : Node) (data : DataTable) : Except LiteralError (Option Node) :=
  match node with
  | .declaration (some .const) ty name none =>
    (constantLiteral ty name data).map fun literal =>
      literal.map fun text => .declaration (some .const) ty name (some (.chunk text))
  | _ => .ok none

/-- A declaration whose constant has no literal. -/
structure ConstantError where
  declaration : String
  cause : LiteralError
  deriving DecidableEq

/-- The name that a declaration gives. -/
def declaredName : Node → String
  | .declaration _ _ name _ => name
  | _ => ""

/-- Gives a value to a constant and keeps the first failure as the state. -/
def constantVisitor (data : DataTable) : Visitor (Option ConstantError) := fun node => do
  match substituteConstant node data with
  | .ok (some changed) => return .edit changed
  | .ok none => return .keep
  | .error cause =>
    modify fun failure => failure.or (some ⟨declaredName node, cause⟩)
    return .keep

/-- Gives a value to every constant in some trees that lacks one. If any has no literal,
    the first one of them is reported. -/
def substituteConstants (nodes : List Node) (data : DataTable) :
    Except ConstantError (List Node) :=
  match (Walker.empty.on .declaration (constantVisitor data)).walk nodes none with
  | (_, some failure) => .error failure
  | (nodes, none) => .ok nodes

end ShaderSource
