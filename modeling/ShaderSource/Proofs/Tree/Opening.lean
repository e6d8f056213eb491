import Mathlib.Data.List.Basic
import ShaderSource.Proofs.Token.Longest
import ShaderSource.Proofs.Tree.Shape
import ShaderSource.Proofs.Tree.Pieces

/-!
# How the pieces of a tree begin

The first piece of a statement or an expression tells the rules apart that could
read it, with one exception: a declaration, an assignment and an expression can
all begin with a name. Behind the name an expression goes on neither with
another name nor with an assignment.
-/

namespace ShaderSource

/-- The word of a qualifier is a plain piece. -/
theorem Qualifier.plain_piece (qualifier : Qualifier) : qualifier.piece.Plain := by
  cases qualifier <;> decide

/-- An assignment operator is a plain piece. -/
theorem AssignOp.plain_piece (op : AssignOp) : op.piece.Plain := by
  cases op <;> decide

/-- A unary operator is a plain piece. -/
theorem UnaryOp.plain_piece (op : UnaryOp) : op.piece.Plain := by
  cases op <;> decide

/-- The operator of a step is a plain piece. -/
theorem CrementOp.plain_piece (op : CrementOp) : op.piece.Plain := by
  cases op <;> decide

/-- A binary operator is a plain piece. -/
theorem BinaryOp.plain_piece (op : BinaryOp) : op.piece.Plain := by
  cases op <;> decide

/-- A name is none of the reserved words. -/
theorem ne_of_isNameText {name text : String} (named : isNameText name = true)
    (reserved : text ∈ reservedWords) : name ≠ text := by
  rintro rfl
  simp only [isNameText, isReserved, Bool.and_eq_true, Bool.not_eq_true',
    List.contains_eq_mem, reserved, decide_true] at named
  exact Bool.noConfusion named.2

namespace Piece

/-- Whether a piece can name a type, a declaration or a variable. -/
def isName (piece : Piece) : Bool := piece.kind == .identifier && !isReserved piece.text

/-- Whether an operand can begin with a piece. -/
def opensOperand (piece : Piece) : Bool :=
  piece.kind == .float || piece.kind == .integer || piece.isName || piece.text == "(" ||
    (UnaryOp.all.map UnaryOp.spelling).contains piece.text || piece.kind == .crement

/-- Whether an expression that begins with a name can go on with a piece. -/
def continuesValue (piece : Piece) : Bool := !piece.isName && piece.kind != .assign

/-- What can be a name is one as a piece. -/
theorem isName_word {name : String} (named : isNameText name = true) :
    (word name).isName = true := by
  simp only [isNameText, Bool.and_eq_true] at named
  simp only [isName, word, named.2, beq_self_eq_true, Bool.and_self]

/-- What can be a name is a plain piece. -/
theorem plain_word {name : String} (named : isNameText name = true) : (word name).Plain := by
  simp only [isNameText, Bool.and_eq_true] at named
  exact ⟨named.1, by simp [word]⟩

/-- No operand begins with a reserved word. -/
theorem text_ne_of_opensOperand {piece : Piece} (lexical : piece.isLexical = true)
    (opens : piece.opensOperand = true) {text : String} (reserved : text ∈ reservedWords) :
    piece.text ≠ text := by
  have each : ∀ text ∈ reservedWords,
      (word text).isLexical = true ∧ (word text).opensOperand = false := by decide
  obtain ⟨lexicalWord, closed⟩ := each text reserved
  intro same
  rw [eq_of_text lexical lexicalWord same, closed] at opens
  exact Bool.noConfusion opens

open Lexeme in
/-- No operand begins with a sign that begins neither names, numbers and strings nor any symbol
    that opens an operand. -/
theorem head_ne_of_opensOperand {sign : Char}
    (between : ∀ entry ∈ symbols, entry.1.head? = some sign →
      (⟨entry.2, String.ofList entry.1⟩ : Piece).opensOperand = false)
    (plain : (beginsIdentifier sign || sign.isDigit || sign == '.' || sign == '"') = false)
    {piece : Piece} (lexical : piece.isLexical = true) (opens : piece.opensOperand = true) :
    piece.text.toList.head? ≠ some sign := by
  simp only [Bool.or_eq_false_iff, beq_eq_false_iff_ne] at plain
  obtain ⟨⟨⟨noName, noDigit⟩, noPoint⟩, noQuote⟩ := plain
  intro begins
  by_cases fixed : piece.kind.isFixed = true
  · have closed := between _ (mem_symbols lexical fixed) begins
    simp only [String.ofList_toList] at closed
    exact Bool.noConfusion (closed.symm.trans opens)
  · obtain ⟨kind, text⟩ := piece
    dsimp only at begins
    cases shown : text.toList with
    | nil => simp [shown] at begins
    | cons first rest =>
      obtain rfl : first = sign := by simpa [shown] using begins
      cases kind with
      | identifier =>
        have written : identifierText text.toList = true := lexical
        simp [shown, identifierText, noName] at written
      | integer =>
        have written : integerText text.toList = true := lexical
        simp [shown, integerText, noDigit] at written
      | float =>
        have written : floatText text.toList = true := lexical
        simp [shown, floatText, noDigit, noPoint] at written
      | string =>
        have written : stringText text.toList = true := lexical
        simp [shown, stringText, noQuote] at written
      | _ => exact absurd rfl fixed

end Piece

/-- Some pieces begin like an expression, and neither like a declaration nor like an
    assignment. -/
structure OpensExpression (pieces : List Piece) : Prop where
  begins : ∃ first rest, pieces = first :: rest ∧ first.isLexical = true ∧
    first.opensOperand = true ∧
      (first.isName = true → ∀ second, rest.head? = some second → second.continuesValue = true)

namespace OpensExpression

/-- A first piece that is no name decides alone. -/
theorem of_other {first : Piece} (rest : List Piece) (lexical : first.isLexical = true)
    (opens : first.opensOperand = true) (other : first.isName = false) :
    OpensExpression (first :: rest) :=
  ⟨first, rest, rfl, lexical, opens, fun named => by simp [other] at named⟩

/-- Pieces that open an expression do so with more behind them that it can go on with. -/
theorem append {pieces later : List Piece} (opens : OpensExpression pieces)
    (goes : ∀ second, later.head? = some second → second.continuesValue = true) :
    OpensExpression (pieces ++ later) := by
  obtain ⟨first, rest, rfl, lexical, opens, further⟩ := opens
  refine ⟨first, rest ++ later, rfl, lexical, opens, fun named second next => ?_⟩
  cases rest with
  | nil => exact goes second next
  | cons known rest => exact further named second next

/-- An expression is not empty. -/
theorem ne_nil {pieces : List Piece} (opens : OpensExpression pieces) : pieces ≠ [] := by
  obtain ⟨_, _, rfl, _⟩ := opens
  exact List.cons_ne_nil _ _

/-- An expression does not begin with a reserved word. -/
theorem head_ne {pieces : List Piece} (opens : OpensExpression pieces) {first : Piece}
    (shown : pieces.head? = some first) {text : String} (reserved : text ∈ reservedWords) :
    first.text ≠ text := by
  obtain ⟨_, rest, rfl, lexical, opens, _⟩ := opens
  obtain rfl := Option.some.inj shown
  exact Piece.text_ne_of_opensOperand lexical opens reserved

/-- An expression does not begin with the text of a piece that opens no operand. -/
theorem head_text_ne {pieces : List Piece} (opens : OpensExpression pieces) {first : Piece}
    (shown : pieces.head? = some first) (closing : Piece) (lexical : closing.isLexical = true)
    (closed : closing.opensOperand = false) : first.text ≠ closing.text := by
  obtain ⟨_, rest, rfl, known, opens, _⟩ := opens
  obtain rfl := Option.some.inj shown
  intro same
  rw [Piece.eq_of_text known lexical same, closed] at opens
  exact Bool.noConfusion opens

end OpensExpression

/-- Every expression begins like one. -/
theorem Shaped.opensExpression {category : Category} {node : Node} (shaped : Shaped category node)
    (valued : category.isStatement = false) : OpensExpression (node.pieces true) := by
  induction shaped with
  | float written => exact .of_other [] written rfl rfl
  | int written => exact .of_other [] written rfl rfl
  | reference named =>
    exact ⟨_, [], rfl, (Piece.plain_word named).lexical,
      by simp [Piece.opensOperand, Piece.isName_word named], fun _ _ none => by simp at none⟩
  | parenthesized =>
    simp only [Node.pieces, List.cons_append]
    exact .of_other _ (by decide) (by decide) (by decide)
  | call _ _ callee =>
    simp only [Node.pieces, List.append_assoc, List.cons_append]
    apply (callee rfl).append
    intro second next
    obtain rfl := Option.some.inj next
    decide
  | property _ _ owner =>
    apply (owner rfl).append
    intro second next
    obtain rfl := Option.some.inj next
    decide
  | @trailingCrement op _ _ _ stepped =>
    simp only [Node.pieces, if_true]
    apply (stepped rfl).append
    intro second next
    obtain rfl := Option.some.inj next
    cases op <;> decide
  | ofPrimary _ found => exact found rfl
  | @unary op =>
    simp only [Node.pieces]
    exact .of_other _ op.plain_piece.lexical (by cases op <;> decide) (by cases op <;> decide)
  | @leadingCrement op =>
    simp only [Node.pieces, Bool.false_eq_true, if_false]
    exact .of_other _ op.plain_piece.lexical (by cases op <;> decide) (by cases op <;> decide)
  | ofOperand _ found => exact found rfl
  | @binary ops operands linked count _ found =>
    match ops, operands, linked, count with
    | op :: ops, first :: second :: others, _, _ =>
      simp only [Node.pieces, Node.piecesList, chainPieces, List.zipWith_cons_cons,
        List.flatten_cons]
      apply (found first (by simp) rfl).append
      intro next shown
      obtain rfl := Option.some.inj shown
      cases op <;> decide
  | _ => exact Bool.noConfusion valued

/-- A property begins like an expression, whatever follows it. -/
theorem Shaped.opens_property {target : Node} (shaped : Shaped .primary target)
    (property : target.isProperty = true) (later : List Piece) :
    OpensExpression (target.pieces true ++ later) := by
  cases shaped with
  | property owner =>
    simp only [Node.pieces, List.append_assoc]
    apply (owner.opensExpression rfl).append
    intro second next
    obtain rfl := Option.some.inj next
    decide
  | float | int | reference | parenthesized | call | trailingCrement =>
    exact Bool.noConfusion property

/-- A statement does not begin with an `else`. -/
theorem Shaped.head_ne_else {category : Category} {node : Node} (shaped : Shaped category node)
    {first : Piece} (shown : (node.pieces true).head? = some first) : first.text ≠ "else" := by
  have reserved : "else" ∈ reservedWords := by decide
  have valued : ∀ {category value later}, Shaped category value → category.isStatement = false →
      (value.pieces true ++ later).head? = some first → first.text ≠ "else" := by
    intro category value later inner expression shown
    have opens := inner.opensExpression expression
    rw [List.head?_append_of_ne_nil _ opens.ne_nil] at shown
    exact opens.head_ne shown reserved
  by_cases expression : category.isStatement = false
  · exact (shaped.opensExpression expression).head_ne shown reserved
  · induction shaped with
    | declaration typed | assignment typed | function typed =>
      obtain rfl := Option.some.inj shown
      exact ne_of_isNameText typed reserved
    | propertyAssignment owner =>
      simp only [Node.pieces, List.append_assoc] at shown
      exact valued owner rfl shown
    | expression inner => exact valued inner rfl shown
    | ofClause _ found | ofStatement _ found => exact found shown (by decide)
    | empty | conditional | loop | returning | breaking | precision =>
      obtain rfl := Option.some.inj shown
      decide
    | @qualified qualifier =>
      obtain rfl := Option.some.inj shown
      cases qualifier <;> decide
    | _ => exact absurd rfl expression

end ShaderSource
