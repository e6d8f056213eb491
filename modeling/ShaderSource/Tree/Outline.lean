import ShaderSource.Text.Lines
import ShaderSource.Text.Quoted
import ShaderSource.Tree.Node

/-!
# Outlines of trees

An outline shows every part of a tree on a line of its own, under the name it
has. What is inside of something is set in by one step, and each item is
followed by a comma. A list without items stays on its line.

A node is shown as the name of its kind around the record of its parts.
-/

namespace ShaderSource

/-- What an outline shows. -/
inductive Outline where
  /-- A text on one line. -/
  | line (text : String)
  /-- One item inside of a name. -/
  | wrapped (name : String) (item : Outline)
  | record (name : String) (fields : List (String × Outline))
  | list (items : List Outline)

namespace Outline

/-- The beginning of a line at some depth. -/
def margin (depth : Nat) : String := String.join (List.replicate depth Text.indentation)

mutual

/-- The text of an outline whose first line is already begun, at some depth. -/
def print (depth : Nat) : Outline → String
  | line text => text
  | wrapped name item =>
    name ++ "(\n" ++ margin (depth + 1) ++ item.print (depth + 1) ++ ",\n" ++ margin depth ++ ")"
  | record name fields =>
    name ++ " \x7b\n" ++ printFields (depth + 1) fields ++ margin depth ++ "\x7d"
  | list items =>
    if items.isEmpty then "[]" else "[\n" ++ printItems (depth + 1) items ++ margin depth ++ "]"

/-- The lines of some fields. -/
def printFields (depth : Nat) : List (String × Outline) → String
  | [] => ""
  | (name, value) :: fields =>
    margin depth ++ name ++ ": " ++ value.print depth ++ ",\n" ++ printFields depth fields

/-- The lines of some items. -/
def printItems (depth : Nat) : List Outline → String
  | [] => ""
  | item :: items => margin depth ++ item.print depth ++ ",\n" ++ printItems depth items

end

/-- The text of an outline. -/
def render (outline : Outline) : String := outline.print 0

/-- A text in quotation marks. -/
def ofText (text : String) : Outline := line (Text.quoted text)

/-- A part that may be absent. -/
def ofOption : Option Outline → Outline
  | some outline => wrapped "Some" outline
  | none => line "None"

/-- A node of some kind whose record has a name. -/
def ofRecord (kind : NodeKind) (name : String) (fields : List (String × Outline)) : Outline :=
  wrapped kind.name (record name fields)

/-- A node of some kind whose record is named like the kind. -/
def ofParts (kind : NodeKind) (fields : List (String × Outline)) : Outline :=
  ofRecord kind kind.name fields

/-- A node of some kind without parts. -/
def ofKind (kind : NodeKind) : Outline := wrapped kind.name (line kind.name)

end Outline

open Outline

def Param.outline (param : Param) : Outline :=
  record "Param" [("ty", ofText param.ty), ("name", ofText param.name)]

mutual

/-- The outline of a node. -/
def Node.outline : Node → Outline
  | .precision level ty =>
    ofParts .precision [("precision", ofText level), ("ty", ofText ty)]
  | .declaration qualifier ty name value =>
    ofParts .declaration
      [("qualifier", ofOption (qualifier.map fun word => line word.name)), ("ty", ofText ty),
       ("name", ofText name), ("value", ofOption (Node.optionOutline value))]
  | .assignment name op value =>
    ofParts .assignment
      [("name", ofText name), ("op", line op.name), ("value", value.outline)]
  | .propertyAssignment target op value =>
    ofParts .propertyAssignment
      [("target", target.outline), ("op", line op.name), ("value", value.outline)]
  | .expression value => ofParts .expression [("value", value.outline)]
  | .empty => ofKind .empty
  | .function returnType name params body =>
    ofParts .function
      [("return_ty", ofText returnType), ("name", ofText name),
       ("params", list (params.map Param.outline)), ("body", list (Node.listOutlines body))]
  | .conditional condition body elseIfs elseBody =>
    ofParts .conditional
      [("condition", condition.outline), ("body", list (Node.listOutlines body)),
       ("else_ifs", list (Branch.listOutlines elseIfs)),
       ("else_body", ofOption (Node.optionListOutline elseBody))]
  | .loop init check increment body =>
    ofParts .loop
      [("init", init.outline), ("check", check.outline), ("increment", increment.outline),
       ("body", list (Node.listOutlines body))]
  | .returning value => ofParts .returning [("value", ofOption (Node.optionOutline value))]
  | .breaking => ofKind .breaking
  | .float text => ofRecord .float "FloatLiteral" [("value", ofText text)]
  | .int text => ofRecord .int "IntLiteral" [("value", ofText text)]
  | .reference name => ofParts .reference [("name", ofText name)]
  | .parenthesized value => ofParts .parenthesized [("value", value.outline)]
  | .unary op value => ofParts .unary [("op", line op.name), ("value", value.outline)]
  | .call callee args =>
    ofParts .call [("callee", callee.outline), ("args", list (Node.listOutlines args))]
  | .binary ops operands =>
    ofParts .binary
      [("ops", list (ops.map fun op => line op.name)),
       ("operands", list (Node.listOutlines operands))]
  | .property value property =>
    ofParts .property [("value", value.outline), ("property", ofText property)]
  | .crement op trailing value =>
    ofParts .crement
      [("op", line op.name), ("postfix", line (toString trailing)), ("value", value.outline)]
  | .chunk text => ofParts .chunk [("text", ofText text)]

/-- The outlines of some nodes. -/
def Node.listOutlines : List Node → List Outline
  | [] => []
  | node :: nodes => node.outline :: Node.listOutlines nodes

/-- The outline of an optional node. -/
def Node.optionOutline : Option Node → Option Outline
  | none => none
  | some node => some node.outline

/-- The outline of an optional list of nodes. -/
def Node.optionListOutline : Option (List Node) → Option Outline
  | none => none
  | some nodes => some (list (Node.listOutlines nodes))

/-- The outline of a branch. -/
def Branch.outline : Branch → Outline
  | .mk condition body =>
    record "ElseIf" [("condition", condition.outline), ("body", list (Node.listOutlines body))]

/-- The outlines of some branches. -/
def Branch.listOutlines : List Branch → List Outline
  | [] => []
  | branch :: branches => branch.outline :: Branch.listOutlines branches

end

/-- The outline of a program. -/
def programOutline (nodes : List Node) : Outline := list (Node.listOutlines nodes)

end ShaderSource
