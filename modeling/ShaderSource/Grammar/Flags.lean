/-!
# Contexts of reading

A rule of a grammar can be read in some contexts and not in others: at the top
of a program, in a body, as an operand, and so on. A set of contexts says in
which ones a rule is tried, and which one is being read.
-/

namespace ShaderSource

/-- A set of contexts, one bit for each. -/
structure Flags where
  bits : BitVec 7
  deriving DecidableEq, Repr

namespace Flags

def none : Flags := ⟨0⟩

/-- The statements at the top of a program. -/
def root : Flags := ⟨1⟩

/-- The statements of a body. -/
def statement : Flags := ⟨2⟩

/-- The clauses of a loop, which have no `;`. -/
def simple : Flags := ⟨4⟩

/-- Expressions, chains of binary operators included. -/
def value : Flags := ⟨8⟩

/-- Expressions that no binary operator continues, such as the operand of a sign. -/
def operand : Flags := ⟨16⟩

/-- Single values, before what may be written behind them. -/
def single : Flags := ⟨32⟩

/-- What is written behind a value that was read before. -/
def trailing : Flags := ⟨64⟩

/-- The contexts one by one with their names. -/
def named : List (Flags × String) :=
  [(root, "root"), (statement, "statement"), (simple, "simple"), (value, "value"),
   (operand, "operand"), (single, "single"), (trailing, "postfix")]

def union (left right : Flags) : Flags := ⟨left.bits ||| right.bits⟩

/-- Whether all contexts of the second set are in the first. -/
def contains (flags other : Flags) : Bool := flags.bits &&& other.bits == other.bits

/-- Whether two sets have a context in common. -/
def intersects (left right : Flags) : Bool := left.bits &&& right.bits != 0

def isEmpty (flags : Flags) : Bool := flags.bits == 0

/-- The names of the contexts of a set. -/
def display (flags : Flags) : String :=
  if flags.isEmpty then "none"
  else " | ".intercalate ((named.filter fun (flag, _) => flags.contains flag).map Prod.snd)

/-- A set with the names of its contexts, in any order. -/
def ofNames? (names : List String) : Option Flags :=
  names.foldlM (fun flags name =>
    (named.find? fun (_, known) => known == name).map fun (flag, _) => flags.union flag) none

end Flags

end ShaderSource
