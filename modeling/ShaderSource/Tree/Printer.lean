import ShaderSource.Text.Lines
import ShaderSource.Tree.Node

/-!
# Writing trees as source text

A program is written with one node of its top level after the other, each on
lines of its own. The statements of a body stand on their own lines too, set
in by one step; a body without statements is written `{}`. The clauses of a
loop are written without the `;` that ends them elsewhere.

Two minus signs must not meet, nor two plus signs: a sign whose operand begins
with a sign is kept apart from it by a space.
-/

namespace ShaderSource

/-- The `;` of a closed statement. -/
def statementEnd (closed : Bool) : String := if closed then ";" else ""

/-- A body in braces, from the texts of its statements. -/
def bracedBody (statements : List String) : String :=
  if statements.isEmpty then "\x7b\x7d"
  else "\x7b\n" ++ Text.indent ("\n".intercalate statements) ++ "\n\x7d"

/-- A text with a space before it if it begins with a sign. -/
def keepApart (operand : String) : String :=
  match operand.toList with
  | '+' :: _ | '-' :: _ => " " ++ operand
  | _ => operand

def Param.render (param : Param) : String := param.ty ++ " " ++ param.name

/-- The texts of operators and operands in turn. A missing operand ends the chain, and
    operators or operands without a partner are left out. -/
def printChain (ops : List BinaryOp) (operands : List String) : String :=
  match operands with
  | [] => ""
  | first :: others =>
    first ++ String.join (List.zipWith (fun op operand => " " ++ op.spelling ++ " " ++ operand)
      ops others)

mutual

/-- The text of a node. Its `;`, if it has one, is written only if `closed`. -/
def Node.print (closed : Bool) : Node → String
  | .precision level ty => "precision " ++ level ++ " " ++ ty ++ ";"
  | .declaration qualifier ty name value =>
    (match qualifier with
      | some word => word.spelling ++ " "
      | none => "") ++
      ty ++ " " ++ name ++
      (match value with
        | some initial => " = " ++ initial.print true
        | none => "") ++ statementEnd closed
  | .assignment name op value =>
    name ++ " " ++ op.spelling ++ " " ++ value.print true ++ statementEnd closed
  | .propertyAssignment target op value =>
    target.print true ++ " " ++ op.spelling ++ " " ++ value.print true ++ statementEnd closed
  | .expression value => value.print true ++ statementEnd closed
  | .empty => statementEnd closed
  | .function returnType name params body =>
    returnType ++ " " ++ name ++ "(" ++ ", ".intercalate (params.map Param.render) ++ ") " ++
      bracedBody (Node.printList body)
  | .conditional condition body elseIfs elseBody =>
    "if (" ++ condition.print true ++ ") " ++ bracedBody (Node.printList body) ++
      Branch.printList elseIfs ++
      (match elseBody with
        | some last => " else " ++ bracedBody (Node.printList last)
        | none => "")
  | .loop init check increment body =>
    "for (" ++ init.print false ++ "; " ++ check.print false ++ "; " ++
      increment.print false ++ ") " ++ bracedBody (Node.printList body)
  | .returning value =>
    match value with
    | some result => "return " ++ result.print true ++ ";"
    | none => "return;"
  | .breaking => "break;"
  | .float text => text
  | .int text => text
  | .reference name => name
  | .parenthesized value => "(" ++ value.print true ++ ")"
  | .unary op value => op.spelling ++ keepApart (value.print true)
  | .call callee args =>
    callee.print true ++ "(" ++ ", ".intercalate (Node.printList args) ++ ")"
  | .binary ops operands => printChain ops (Node.printList operands)
  | .property value property => value.print true ++ "." ++ property
  | .crement op trailing value =>
    if trailing then value.print true ++ op.spelling else op.spelling ++ value.print true
  | .chunk text => text

/-- The texts of some nodes. -/
def Node.printList : List Node → List String
  | [] => []
  | node :: nodes => node.print true :: Node.printList nodes

/-- The text of a branch after the body before it. -/
def Branch.print : Branch → String
  | .mk condition body =>
    " else if (" ++ condition.print true ++ ") " ++ bracedBody (Node.printList body)

/-- The text of some branches. -/
def Branch.printList : List Branch → String
  | [] => ""
  | branch :: branches => branch.print ++ Branch.printList branches

end

-- The equations of the printer are derived here once for all modules.
attribute [local simp] Node.print

/-- The text of a node. -/
def Node.render (node : Node) : String := node.print true

/-- The texts of some statements, each as it is rendered alone. -/
theorem Node.printList_eq_map (nodes : List Node) : Node.printList nodes = nodes.map render := by
  induction nodes with
  | nil => rfl
  | cons node nodes inductionHypothesis => simp [Node.printList, render, inductionHypothesis]

/-- The text of a program, one node of its top level after the other. -/
def renderProgram (nodes : List Node) : String := "\n".intercalate (nodes.map Node.render)

end ShaderSource
