/-!
# Words of the language

The qualifiers and operators that a tree records, each with its spelling in a
source text, and the words that may not be used as names. A spelling is read
back by exactly the operator that has it.
-/

namespace ShaderSource

/-- How a declaration at the top of a program is shared with its surroundings. -/
inductive Qualifier where
  | uniform
  | varying
  | const
  deriving DecidableEq, Repr

/-- The operators of assignments. -/
inductive AssignOp where
  | assign
  | addAssign
  | subAssign
  | mulAssign
  | divAssign
  | modAssign
  deriving DecidableEq, Repr

/-- The operators that stand before a single operand and leave it unchanged. -/
inductive UnaryOp where
  | not
  | minus
  | plus
  deriving DecidableEq, Repr

/-- The operators between two operands. -/
inductive BinaryOp where
  | add
  | sub
  | mul
  | div
  | mod
  | equal
  | notEqual
  | less
  | greater
  | lessEqual
  | greaterEqual
  | or
  | and
  deriving DecidableEq, Repr

/-- The operators that step a variable up or down. -/
inductive CrementOp where
  | increment
  | decrement
  deriving DecidableEq, Repr

/-- A text that is none of the spellings of what was expected. -/
structure SpellingError where
  expected : String
  text : String
  deriving DecidableEq, Repr

namespace SpellingError

def message (error : SpellingError) : String :=
  "`" ++ error.text ++ "` is not a valid " ++ error.expected

end SpellingError

/-- The word or operator with a spelling, among those of a list. -/
def readSpelling {α : Type} (expected : String) (spelling : α → String) (all : List α)
    (text : String) : Except SpellingError α :=
  match all.find? (fun word => spelling word == text) with
  | some word => .ok word
  | none => .error ⟨expected, text⟩

namespace Qualifier

def all : List Qualifier := [uniform, varying, const]

def spelling : Qualifier → String
  | uniform => "uniform"
  | varying => "varying"
  | const => "const"

def ofSpelling (text : String) : Except SpellingError Qualifier :=
  readSpelling "qualifier" spelling all text

/-- A qualifier is known by its spelling. -/
theorem ofSpelling_spelling (word : Qualifier) : ofSpelling word.spelling = .ok word := by
  cases word <;> rfl

/-- The name of a word in written forms of a tree. -/
def name : Qualifier → String
  | uniform => "Uniform"
  | varying => "Varying"
  | const => "Const"

def ofName? (text : String) : Option Qualifier := all.find? fun word => word.name == text

/-- A qualifier is known by its name. -/
theorem ofName?_name (word : Qualifier) : ofName? word.name = some word := by
  cases word <;> rfl

end Qualifier

namespace AssignOp

def all : List AssignOp := [assign, addAssign, subAssign, mulAssign, divAssign, modAssign]

def spelling : AssignOp → String
  | assign => "="
  | addAssign => "+="
  | subAssign => "-="
  | mulAssign => "*="
  | divAssign => "/="
  | modAssign => "%="

def ofSpelling (text : String) : Except SpellingError AssignOp :=
  readSpelling "assignment operator" spelling all text

/-- An assignment operator is known by its spelling. -/
theorem ofSpelling_spelling (op : AssignOp) : ofSpelling op.spelling = .ok op := by
  cases op <;> rfl

/-- The name of a word in written forms of a tree. -/
def name : AssignOp → String
  | assign => "Assign"
  | addAssign => "AddAssign"
  | subAssign => "SubAssign"
  | mulAssign => "MulAssign"
  | divAssign => "DivAssign"
  | modAssign => "ModAssign"

def ofName? (text : String) : Option AssignOp := all.find? fun word => word.name == text

/-- An assignment operator is known by its name. -/
theorem ofName?_name (word : AssignOp) : ofName? word.name = some word := by
  cases word <;> rfl

end AssignOp

namespace UnaryOp

def all : List UnaryOp := [not, minus, plus]

def spelling : UnaryOp → String
  | not => "!"
  | minus => "-"
  | plus => "+"

def ofSpelling (text : String) : Except SpellingError UnaryOp :=
  readSpelling "unary operator" spelling all text

/-- A unary operator is known by its spelling. -/
theorem ofSpelling_spelling (op : UnaryOp) : ofSpelling op.spelling = .ok op := by
  cases op <;> rfl

/-- The name of a word in written forms of a tree. -/
def name : UnaryOp → String
  | not => "Not"
  | minus => "Minus"
  | plus => "Plus"

def ofName? (text : String) : Option UnaryOp := all.find? fun word => word.name == text

/-- A unary operator is known by its name. -/
theorem ofName?_name (word : UnaryOp) : ofName? word.name = some word := by
  cases word <;> rfl

end UnaryOp

namespace BinaryOp

def all : List BinaryOp :=
  [add, sub, mul, div, mod, equal, notEqual, less, greater, lessEqual, greaterEqual, or, and]

def spelling : BinaryOp → String
  | add => "+"
  | sub => "-"
  | mul => "*"
  | div => "/"
  | mod => "%"
  | equal => "=="
  | notEqual => "!="
  | less => "<"
  | greater => ">"
  | lessEqual => "<="
  | greaterEqual => ">="
  | or => "||"
  | and => "&&"

def ofSpelling (text : String) : Except SpellingError BinaryOp :=
  readSpelling "binary operator" spelling all text

/-- A binary operator is known by its spelling. -/
theorem ofSpelling_spelling (op : BinaryOp) : ofSpelling op.spelling = .ok op := by
  cases op <;> rfl

/-- The name of a word in written forms of a tree. -/
def name : BinaryOp → String
  | add => "Add"
  | sub => "Sub"
  | mul => "Mul"
  | div => "Div"
  | mod => "Mod"
  | equal => "Equal"
  | notEqual => "NotEqual"
  | less => "Less"
  | greater => "Greater"
  | lessEqual => "LessEqual"
  | greaterEqual => "GreaterEqual"
  | or => "Or"
  | and => "And"

def ofName? (text : String) : Option BinaryOp := all.find? fun word => word.name == text

/-- A binary operator is known by its name. -/
theorem ofName?_name (word : BinaryOp) : ofName? word.name = some word := by
  cases word <;> rfl

end BinaryOp

namespace CrementOp

def all : List CrementOp := [increment, decrement]

def spelling : CrementOp → String
  | increment => "++"
  | decrement => "--"

def ofSpelling (text : String) : Except SpellingError CrementOp :=
  readSpelling "increment operator" spelling all text

/-- The operator of a step is known by its spelling. -/
theorem ofSpelling_spelling (op : CrementOp) : ofSpelling op.spelling = .ok op := by
  cases op <;> rfl

/-- The name of a word in written forms of a tree. -/
def name : CrementOp → String
  | increment => "Increment"
  | decrement => "Decrement"

def ofName? (text : String) : Option CrementOp := all.find? fun word => word.name == text

/-- The operator of a step is known by its name. -/
theorem ofName?_name (word : CrementOp) : ofName? word.name = some word := by
  cases word <;> rfl

end CrementOp

/-- Words that cannot name a type, a declaration or a variable. -/
def reservedWords : List String :=
  ["precision", "uniform", "varying", "const", "if", "else", "for", "return", "break"]

/-- Whether a text is one of the reserved words. -/
def isReserved (word : String) : Bool := reservedWords.contains word

end ShaderSource
