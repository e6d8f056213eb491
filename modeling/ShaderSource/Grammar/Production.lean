import ShaderSource.Grammar.Basic

/-!
# The grammar of shaders

The rules of a subset of GLSL ES: precision statements, declarations,
functions, conditionals, loops and expressions. There are no arrays,
structures, ternary operators or preprocessor directives.

The order of the rules is the order in which they are tried. It matters where
one text fits two rules: an assignment comes before an expression, since a
clause of a loop has no `;` that would tell them apart.
-/

namespace ShaderSource

namespace Token

/-- Whether a token can name a type, a declaration or a variable. -/
def isName (token : Token) : Bool :=
  token.kind == .identifier && !isReserved token.text

/-- Whether a token is an operator between two operands. -/
def isBinaryOp (token : Token) : Bool :=
  [TokenKind.operator, .equality, .boolop].contains token.kind &&
    (BinaryOp.ofSpelling token.text).isOk

end Token

/-- The rules of the grammar. -/
inductive Production where
  | precision
  | declaration
  | function
  | assignment
  | propertyAssignment
  | conditional
  | loop
  | returning
  | breaking
  | expressionStatement
  | emptyStatement
  | float
  | int
  | reference
  | parenthesized
  | unary
  | leadingCrement
  | expression
  | call
  | property
  | trailingCrement
  deriving DecidableEq, Repr

namespace Production

open Attempt

/-- The rules in the order in which they are tried. -/
def all : List Production :=
  [precision, declaration, function, assignment, propertyAssignment, conditional, loop,
   returning, breaking, expressionStatement, emptyStatement, float, int, reference,
   parenthesized, unary, leadingCrement, expression, call, property, trailingCrement]

/-- The name of a rule. -/
def name : Production → String
  | precision => "precision"
  | declaration => "variable_decl"
  | function => "function_decl"
  | assignment => "variable_assign"
  | propertyAssignment => "property_assign"
  | conditional => "if"
  | loop => "for"
  | returning => "return"
  | breaking => "break"
  | expressionStatement => "expression_statement"
  | emptyStatement => "empty_statement"
  | float => "float"
  | int => "int"
  | reference => "variable"
  | parenthesized => "parenthesized"
  | unary => "unary"
  | leadingCrement => "prefix_crement"
  | expression => "value"
  | call => "call"
  | property => "property"
  | trailingCrement => "postfix_crement"

/-- The contexts of statements that may stand at the top and in bodies. -/
def anyStatement : Flags := Flags.root.union .statement

/-- The contexts of statements that may also be clauses of a loop. -/
def anySimpleStatement : Flags := anyStatement.union .simple

/-- The contexts of a rule. -/
def flags : Production → Flags
  | precision | function => .root
  | declaration | assignment | propertyAssignment | expressionStatement | emptyStatement =>
    anySimpleStatement
  | conditional | loop | returning | breaking => anyStatement
  | float | int | reference | parenthesized | unary | leadingCrement => .single
  | expression => Flags.value.union .operand
  | call | property | trailingCrement => .trailing

/-- A token with a text. -/
def word (text : String) : Attempt Token := token (Token.hasText text)

/-- A name that is not reserved. -/
def nameText : Attempt String := do
  let token ← token Token.isName
  return token.text

/-- The `;` of a statement, which a clause of a loop does not have. -/
def endStatement : Attempt Unit := do
  let clause := (← Attempt.flags).contains .simple
  let _ ← tokenIf (!clause) (Token.hasText ";")
  return ()

/-- Statements in braces. -/
def body : Attempt (List Node) := do
  let _ ← word "\x7b"
  let statements ← nodes .statement "\x7d"
  let _ ← word "\x7d"
  return statements

/-- A condition in parentheses and the statements that it guards. -/
def guarded : Attempt (Node × List Node) := do
  let _ ← word "("
  let condition ← node .value
  let _ ← word ")"
  let statements ← body
  return (condition, statements)

def assignOp : Attempt AssignOp := do
  let token ← token (Token.hasKind .assign)
  spelled (AssignOp.ofSpelling token.text)

def crementOp : Attempt CrementOp := do
  let token ← token (Token.hasKind .crement)
  spelled (CrementOp.ofSpelling token.text)

/-- A comma before every item of a list but the first. -/
def separator (rounds : Nat) : Attempt Unit := do
  let _ ← tokenIf (0 < rounds) (Token.hasText ",")
  return ()

def readPrecision : Attempt Node := do
  let _ ← word "precision"
  let level ← nameText
  let ty ← nameText
  let _ ← word ";"
  return .precision level ty

/-- The qualifier of a declaration, which it can have only at the top of a program. -/
def readQualifier : Attempt (Option Qualifier) := do
  match ← token? (Token.hasTextAmong (Qualifier.all.map Qualifier.spelling)) with
  | some token => some <$> spelled (Qualifier.ofSpelling token.text)
  | none => return none

/-- The value of a declaration behind its `=`. -/
def readInitial : Attempt (Option Node) := do
  match ← token? (Token.hasText "=") with
  | some _ => some <$> node .value
  | none => return none

def readDeclaration : Attempt Node := do
  let qualifier ← readQualifier
  validate (qualifier.isNone || (← Attempt.flags).contains .root)
  let ty ← nameText
  let name ← nameText
  let value ← readInitial
  endStatement
  return .declaration qualifier ty name value

def readParam (rounds : Nat) (params : List Param) : Attempt (List Param) := do
  separator rounds
  let ty ← nameText
  let name ← nameText
  return params ++ [⟨ty, name⟩]

def readFunction : Attempt Node := do
  let returnType ← nameText
  let name ← nameText
  let _ ← word "("
  let params ← repeatUntil (Token.hasText ")") readParam []
  let _ ← word ")"
  let statements ← body
  return .function returnType name params statements

def readAssignment : Attempt Node := do
  let name ← nameText
  let op ← assignOp
  let value ← node .value
  endStatement
  return .assignment name op value

def readPropertyAssignment : Attempt Node := do
  let target ← node .value
  validate target.isProperty
  let op ← assignOp
  let value ← node .value
  endStatement
  return .propertyAssignment target op value

/-- One more branch. Nothing can follow the branch without a condition. -/
def readElse (_rounds : Nat) (branches : List Branch × Option (List Node)) :
    Attempt (List Branch × Option (List Node)) := do
  validate branches.2.isNone
  let _ ← word "else"
  match ← token? (Token.hasText "if") with
  | some _ =>
    let (condition, statements) ← guarded
    return (branches.1 ++ [.mk condition statements], none)
  | none =>
    let statements ← body
    return (branches.1, some statements)

def readConditional : Attempt Node := do
  let _ ← word "if"
  let (condition, statements) ← guarded
  let (elseIfs, elseBody) ← repeatWhile (Token.hasText "else") readElse ([], none)
  return .conditional condition statements elseIfs elseBody

def readLoop : Attempt Node := do
  let _ ← word "for"
  let _ ← word "("
  let init ← node .simple
  let _ ← word ";"
  let check ← node .simple
  let _ ← word ";"
  let increment ← node .simple
  let _ ← word ")"
  let statements ← body
  return .loop init check increment statements

def readReturn : Attempt Node := do
  let _ ← word "return"
  let value ← if ← nextMatches (Token.hasText ";") then pure none else some <$> node .value
  let _ ← word ";"
  return .returning value

def readBreak : Attempt Node := do
  let _ ← word "break"
  let _ ← word ";"
  return .breaking

def readExpressionStatement : Attempt Node := do
  let value ← node .value
  endStatement
  return .expression value

/-- A lone `;`. As a clause of a loop it is nothing at all, before the `;` or `)` that
    follows the clause. -/
def readEmptyStatement : Attempt Node := do
  if (← Attempt.flags).contains .simple then
    validate (← nextMatches (Token.hasTextAmong [";", ")"]))
  else
    let _ ← word ";"
  return .empty

def readFloat : Attempt Node := do
  let token ← token (Token.hasKind .float)
  return .float token.text

def readInt : Attempt Node := do
  let token ← token (Token.hasKind .integer)
  return .int token.text

def readReference : Attempt Node := do
  let name ← nameText
  return .reference name

def readParenthesized : Attempt Node := do
  let _ ← word "("
  let value ← node .value
  let _ ← word ")"
  return .parenthesized value

def readUnary : Attempt Node := do
  let token ← token (Token.hasTextAmong (UnaryOp.all.map UnaryOp.spelling))
  let op ← spelled (UnaryOp.ofSpelling token.text)
  let value ← node .operand
  return .unary op value

def readLeadingCrement : Attempt Node := do
  let op ← crementOp
  let value ← node .operand
  validate value.isCrementTarget
  return .crement op false value

/-- A single value with everything that is written behind it. -/
def readOperand : Attempt Node := do
  let first ← node .single
  trailingChain first

/-- One more operator and operand of a chain. -/
def readLink (_rounds : Nat) (links : List BinaryOp × List Node) :
    Attempt (List BinaryOp × List Node) := do
  let token ← token Token.isBinaryOp
  let op ← spelled (BinaryOp.ofSpelling token.text)
  let operand ← readOperand
  return (links.1 ++ [op], links.2 ++ [operand])

/-- An operand, or a chain of operands with binary operators between them. -/
def readExpression : Attempt Node := do
  let first ← readOperand
  if (← Attempt.flags).contains .operand then
    return first
  let (ops, operands) ← repeatWhile Token.isBinaryOp readLink ([], [])
  if ops.isEmpty then
    return first
  return .binary ops (first :: operands)

def readArgument (rounds : Nat) (args : List Node) : Attempt (List Node) := do
  separator rounds
  let arg ← node .value
  return args ++ [arg]

def readCall : Attempt Node := do
  let callee ← subject
  let _ ← word "("
  let args ← repeatUntil (Token.hasText ")") readArgument []
  let _ ← word ")"
  return .call callee args

/-- A property of a value. Its name may also be a reserved word. -/
def readProperty : Attempt Node := do
  let value ← subject
  let _ ← word "."
  let token ← token (Token.hasKind .identifier)
  return .property value token.text

def readTrailingCrement : Attempt Node := do
  let value ← subject
  let op ← crementOp
  validate value.isCrementTarget
  return .crement op true value

/-- The attempt that builds the node of a rule. -/
def build : Production → Attempt Node
  | precision => readPrecision
  | declaration => readDeclaration
  | function => readFunction
  | assignment => readAssignment
  | propertyAssignment => readPropertyAssignment
  | conditional => readConditional
  | loop => readLoop
  | returning => readReturn
  | breaking => readBreak
  | expressionStatement => readExpressionStatement
  | emptyStatement => readEmptyStatement
  | float => readFloat
  | int => readInt
  | reference => readReference
  | parenthesized => readParenthesized
  | unary => readUnary
  | leadingCrement => readLeadingCrement
  | expression => readExpression
  | call => readCall
  | property => readProperty
  | trailingCrement => readTrailingCrement

/-- The rule of a production with its own contexts. -/
def rule (production : Production) : Rule :=
  ⟨production.name, production.flags, production.build⟩

/-- The production with a name. -/
def ofName? (text : String) : Option Production :=
  all.find? fun production => production.name == text

end Production

/-- The grammar of shaders. -/
def Grammar.glsl : Grammar := ⟨Production.all.map Production.rule⟩

/-- Reads a shader from its source text. -/
def compile (source : String) : Except ParseError (List Node) := Grammar.glsl.compile source

end ShaderSource
