import ShaderSource.Proofs.Tree.Layout

/-!
# The text of a tree is typeset from its pieces

The text of a node of a program consists of the pieces of the node and of blanks
between them, and nowhere do two pieces run together. Most neighbours are kept
apart by a space or a bracket. A sign stands right before its operand, which
does not begin with another sign or with an equals sign; and a name stands right
behind the point of a property, even behind a number.
-/

namespace ShaderSource

open Lexeme

/-- The text of the first value of a variable, if it is given one. -/
def Node.initialText : Option Node → String
  | none => ""
  | some value => " = " ++ value.print true

/-- The text of a last branch without a condition, if there is one. -/
def Node.elseText : Option (List Node) → String
  | none => ""
  | some body => " else " ++ bracedBody (Node.printList body)

/-- A qualifier with the space behind it, if there is one. -/
def Qualifier.text : Option Qualifier → String
  | none => ""
  | some qualifier => qualifier.spelling ++ " "

/-- A declaration is the qualifier, the type and name, the value and the end. -/
theorem Node.print_declaration (closed : Bool) (qualifier : Option Qualifier) (ty name : String)
    (initial : Option Node) :
    (Node.declaration qualifier ty name initial).print closed =
      Qualifier.text qualifier ++ (ty ++ " " ++ name ++ Node.initialText initial ++
        statementEnd closed) := by
  cases qualifier <;> cases initial <;>
    simp only [Node.print, Node.initialText, Qualifier.text, String.append_assoc]

/-- A conditional is its head and body, then the further branches and the last one. -/
theorem Node.print_conditional (closed : Bool) (condition : Node) (body : List Node)
    (elseIfs : List Branch) (elseBody : Option (List Node)) :
    (Node.conditional condition body elseIfs elseBody).print closed =
      "if (" ++ condition.print true ++ ") " ++ (bracedBody (Node.printList body) ++
        (Branch.printList elseIfs ++ Node.elseText elseBody)) := by
  cases elseBody <;>
    simp only [Node.print, Node.elseText, String.append_assoc]

/-- A text that ends its line still does with some branches behind it. -/
theorem endsLine_branches (branches : List Branch) {text : String} (ends : EndsLine text) :
    EndsLine (text ++ Branch.printList branches) := by
  induction branches generalizing text with
  | nil => simpa [Branch.printList] using ends
  | cons branch branches inductionHypothesis =>
    obtain ⟨condition, body⟩ := branch
    rw [Branch.printList, ← String.append_assoc]
    exact inductionHypothesis (endsLine_append _ (endsLine_append _ (endsLine_bracedBody _)))

/-- A text that ends its line still does with the last branch behind it. -/
theorem endsLine_elseText (elseBody : Option (List Node)) {text : String} (ends : EndsLine text) :
    EndsLine (text ++ Node.elseText elseBody) := by
  cases elseBody with
  | none => simpa [Node.elseText] using ends
  | some body => exact endsLine_append _ (endsLine_append _ (endsLine_bracedBody _))

/-- The text of a statement ends with its `;` or with a brace. -/
theorem Shaped.endsLine {category : Category} {node : Node} (shaped : Shaped category node)
    (stated : category.isStatement = true) : EndsLine (node.print true) := by
  have semicolon : EndsLine ";" := ⟨by decide, by decide⟩
  induction shaped with
  | @declaration _ _ initial =>
    cases initial <;> exact endsLine_append _ semicolon
  | @qualified _ _ _ initial =>
    cases initial <;> exact endsLine_append _ semicolon
  | assignment | propertyAssignment | expression | precision =>
    exact endsLine_append _ semicolon
  | empty => exact semicolon
  | ofClause _ found | ofStatement _ found => exact found rfl
  | conditional =>
    rw [Node.print_conditional]
    apply endsLine_append _
    rw [← String.append_assoc]
    exact endsLine_elseText _ (endsLine_branches _ (endsLine_bracedBody _))
  | loop | function => exact endsLine_append _ (endsLine_bracedBody _)
  | @returning result =>
    cases result with
    | none => exact ⟨by decide, by decide⟩
    | some => exact endsLine_append _ semicolon
  | breaking => exact ⟨by decide, by decide⟩
  | _ => exact Bool.noConfusion stated

/-- No operand begins with an equals sign. -/
theorem Piece.head_ne_equals {piece : Piece} (lexical : piece.isLexical = true)
    (opens : piece.opensOperand = true) : piece.text.toList.head? ≠ some '=' :=
  head_ne_of_opensOperand (by decide) (by decide) lexical opens

/-- The text of an expression does not begin with an equals sign. -/
theorem OpensExpression.head_ne_equals {chars : List Char} {pieces : List Piece}
    (opens : OpensExpression pieces) : ¬ Typeset ('=' :: chars) pieces := by
  intro typeset
  obtain ⟨first, rest, rfl, lexical, opens, _⟩ := opens
  generalize shown : '=' :: chars = text at typeset
  cases typeset with
  | blank gap =>
    obtain ⟨rfl, _⟩ := List.cons.inj shown
    exact absurd gap (by decide)
  | piece =>
    apply first.head_ne_equals lexical opens
    have front := congrArg List.head? shown
    rw [List.head?_append, Option.or_of_isSome (by simp [Piece.text_ne_nil lexical])] at front
    exact front.symm

/-- What stands behind a sign does not go on with it. -/
theorem OpensExpression.keepApart {text : String} {pieces : List Piece}
    (opens : OpensExpression pieces) (typeset : Typeset text.toList pieces) (op : UnaryOp) :
    Typeset (op.spelling.toList ++ (keepApart text).toList) (op.piece :: pieces) := by
  have ends : ∀ next, next ≠ '=' → next ≠ '+' → next ≠ '-' → ∀ rest,
      op.piece.endsBefore (next :: rest) = true := by
    intro next noEquals noPlus noMinus rest
    cases op <;>
      simp [Piece.endsBefore, UnaryOp.piece, UnaryOp.spelling, continuesSymbol, symbols,
        noEquals.symm, noPlus.symm, noMinus.symm]
  cases shown : text.toList with
  | nil => exact absurd (shown ▸ typeset).pieces_eq_nil opens.ne_nil
  | cons next rest =>
    have noEquals : next ≠ '=' := by
      rintro rfl
      exact opens.head_ne_equals (shown ▸ typeset)
    have apart : Typeset (op.spelling.toList ++ (" " ++ text).toList) (op.piece :: pieces) := by
      rw [String.toList_append]
      exact .spaced op.piece op.plain_piece typeset
    unfold ShaderSource.keepApart
    rw [shown]
    split
    case h_1 => exact apart
    case h_2 => exact apart
    case h_3 noPlus noMinus =>
      refine .piece op.plain_piece (fun later _ => ?_) typeset
      rw [shown]
      exact ends next noEquals (fun same => noPlus rest (same ▸ rfl))
        (fun same => noMinus rest (same ▸ rfl)) _

/-- The text of a node is typeset from its pieces, with its `;` and without it. -/
def Node.Printable (node : Node) : Prop :=
  ∀ closed, Typeset (node.print closed).toList (node.pieces closed)

/-- The text of a body is typeset from the braces and the pieces of its statements. -/
def Node.PrintableBody (statements : List Node) : Prop :=
  Typeset (bracedBody (Node.printList statements)).toList
    (Piece.braced (Node.piecesList statements))

/-- A body is typeset if its statements are. -/
theorem Node.PrintableBody.of_statements {statements : List Node}
    (each : ∀ node ∈ statements, node.Printable)
    (shaped : ∀ node ∈ statements, Shaped .statement node) : PrintableBody statements := by
  rw [PrintableBody, Node.printList_eq_map, Node.piecesList_eq_map]
  apply Typeset.braced
  · intro node member
    exact each node member true
  · intro node member
    exact (shaped node member).endsLine rfl

/-- The operators of a chain have spaces around them. -/
theorem Typeset.links (ops : List BinaryOp) {operands : List Node}
    (each : ∀ operand ∈ operands, Typeset (operand.print true).toList (operand.pieces true)) :
    Begins (String.join (List.zipWith (fun op operand => " " ++ op.spelling ++ " " ++ operand) ops
        (Node.printList operands))).toList ∧
      Typeset (String.join (List.zipWith (fun op operand => " " ++ op.spelling ++ " " ++ operand)
          ops (Node.printList operands))).toList
        (List.zipWith (fun op operand => op.piece :: operand) ops
          (Node.piecesList operands)).flatten := by
  rw [String.toList_join]
  induction operands generalizing ops with
  | nil => simpa [Node.printList, Node.piecesList] using ⟨begins_nil, .done⟩
  | cons operand operands inductionHypothesis =>
    cases ops with
    | nil => exact ⟨begins_nil, .done⟩
    | cons op ops =>
      rw [List.forall_mem_cons] at each
      obtain ⟨begins, typeset⟩ := inductionHypothesis ops each.2
      simp only [Node.printList, Node.piecesList, List.zipWith_cons_cons, List.flatMap_cons,
        List.flatten_cons, String.toList_append, List.append_assoc, List.cons_append]
      refine ⟨begins_cons (by decide : continuesIdentifier ' ' = false) (by decide), .blank (.inl rfl) ?_⟩
      exact .spaced op.piece op.plain_piece (each.1.append typeset begins)

/-- A declaration without its qualifier. -/
theorem Typeset.declared {ty name : String} {initial : Option Node} (typed : isNameText ty = true)
    (named : isNameText name = true)
    (value : ∀ node, initial = some node → Typeset (node.print true).toList (node.pieces true))
    (closed : Bool) :
    Typeset (ty ++ " " ++ name ++ Node.initialText initial ++
        ShaderSource.statementEnd closed).toList
      (.word ty :: .word name :: Node.initialPieces initial ++ Piece.statementEnd closed) := by
  simp only [String.toList_append, List.append_assoc]
  refine .name typed ?_
  cases initial with
  | none =>
    exact .loose (.word name) (Piece.plain_word named).lexical (.inl rfl)
      (begins_statementEnd closed) (.statementEnd closed)
  | some initial =>
    simp only [Node.initialText, String.toList_append, List.append_assoc]
    refine .name named (.spaced .equals (by decide) ?_)
    exact (value initial rfl).append (.statementEnd closed) (begins_statementEnd closed)

namespace Node.Printable

/-- A single piece that is a name or a number is the text of its node. -/
theorem single {node : Node} (piece : Piece) (lexical : piece.isLexical = true)
    (open_ : piece.kind = .identifier ∨ piece.kind = .integer ∨ piece.kind = .float)
    (printed : ∀ closed, node.print closed = piece.text)
    (shown : ∀ closed, node.pieces closed = [piece]) : node.Printable := by
  intro closed
  rw [printed, shown, ← List.append_nil piece.text.toList]
  exact .loose piece lexical open_ begins_nil .done

/-- Parentheses around a printable expression can be printed. -/
theorem parenthesized {value : Node} (inner : value.Printable) :
    (Node.parenthesized value).Printable := by
  intro closed
  simp only [Node.print, Node.pieces, String.toList_append, List.append_assoc, List.cons_append]
  apply Typeset.lone (.bracket "(") (by decide)
  apply (inner true).append
  · exact .lone (.bracket ")") (by decide) .done
  · exact begins_cons (by decide) (by decide)

/-- A call of printable parts can be printed. -/
theorem call {callee : Node} {args : List Node} (called : callee.Printable)
    (given : ∀ arg ∈ args, arg.Printable) : (Node.call callee args).Printable := by
  intro closed
  simp only [Node.print, Node.pieces, String.toList_append, List.append_assoc]
  refine (called true).append ?_ (begins_cons (by decide) (by decide))
  apply Typeset.lone (.bracket "(") (by decide)
  rw [Node.printList_eq_map, Node.piecesList_eq_map]
  apply Typeset.listed
  · intro arg member
    exact given arg member true
  · exact begins_cons (by decide) (by decide)
  · exact .lone (.bracket ")") (by decide) .done

/-- The point of a property is not read along with the name behind it, and not with a number in
    front of it. -/
theorem property {value : Node} {name : String} (owner : value.Printable)
    (named : identifierText name.toList = true) : (Node.property value name).Printable := by
  intro closed
  simp only [Node.print, Node.pieces, String.toList_append, List.append_assoc]
  cases shown : name.toList with
  | nil => simp [shown, identifierText] at named
  | cons first rest =>
    have letter : beginsIdentifier first = true := by
      simp only [shown, identifierText, Bool.and_eq_true] at named
      exact named.1
    have noDigit : first.isDigit = false := by
      rw [Bool.eq_false_iff, ne_eq, isDigit_iff]
      rw [beginsIdentifier_iff] at letter
      omega
    apply (owner true).append
    · have point : (Piece.marker ".").Plain := by decide
      have ends : continuesSymbol '.' first = false := by
        simp [continuesSymbol, symbols, noDigit]
      apply Typeset.piece point
      · intro later _
        simp only [Piece.endsBefore, Piece.marker, List.cons_append, List.head?_cons,
          Option.any_some]
        exact congrArg (!·) ends
      · rw [← shown, ← List.append_nil name.toList]
        exact .loose (.word name) named (.inl rfl) begins_nil .done
    · intro later _
      simp [apart, beginsFraction, noDigit]
      decide

/-- A step behind a printable expression can be printed. -/
theorem trailingCrement (op : CrementOp) {value : Node} (stepped : value.Printable) :
    (Node.crement op true value).Printable := by
  intro closed
  simp only [Node.print, Node.pieces, if_true, String.toList_append]
  rw [← List.append_nil op.spelling.toList]
  apply (stepped true).append
  · exact .piece op.plain_piece (by cases op <;> exact fun _ _ => rfl) .done
  · cases op <;> exact begins_cons (by decide) (by decide)

/-- An operator can be printed where what follows opens an expression: it does not merge with the
    operator. -/
theorem unary (op : UnaryOp) {value : Node} (opens : OpensExpression (value.pieces true))
    (inner : value.Printable) : (Node.unary op value).Printable := by
  intro closed
  simp only [Node.print, Node.pieces, String.toList_append]
  exact opens.keepApart (inner true) op

/-- A step before a printable expression can be printed. -/
theorem leadingCrement (op : CrementOp) {value : Node} (stepped : value.Printable) :
    (Node.crement op false value).Printable := by
  intro closed
  simp only [Node.print, Node.pieces, Bool.false_eq_true, if_false, String.toList_append]
  exact .piece op.plain_piece (by cases op <;> exact fun _ _ => rfl) (stepped true)

/-- A chain of printable operands can be printed. -/
theorem binary (ops : List BinaryOp) {operands : List Node} (filled : operands ≠ [])
    (parts : ∀ operand ∈ operands, operand.Printable) : (Node.binary ops operands).Printable := by
  intro closed
  cases operands with
  | nil => exact absurd rfl filled
  | cons first others =>
    rw [List.forall_mem_cons] at parts
    obtain ⟨begins, typeset⟩ :=
      Typeset.links ops fun operand member => parts.2 operand member true
    simp only [Node.print, Node.pieces, Node.printList, Node.piecesList, printChain, chainPieces,
      String.toList_append]
    exact (parts.1 true).append typeset begins

/-- A declaration with printable value can be printed, if its type and name are names. -/
theorem declaration {ty name : String} {initial : Option Node} (typed : isNameText ty = true)
    (named : isNameText name = true) (value : ∀ node, initial = some node → node.Printable)
    (qualifier : Option Qualifier) :
    (Node.declaration qualifier ty name initial).Printable := by
  intro closed
  have behind := Typeset.declared typed named (fun node same => value node same true) closed
  rw [Node.print_declaration, String.toList_append]
  cases qualifier with
  | none => exact behind
  | some qualifier =>
    rw [Qualifier.text, String.toList_append, List.append_assoc]
    exact .spaced qualifier.piece qualifier.plain_piece behind

/-- An assignment of a printable value can be printed. -/
theorem assignment {name : String} (op : AssignOp) {value : Node} (named : isNameText name = true)
    (assigned : value.Printable) : (Node.assignment name op value).Printable := by
  intro closed
  simp only [Node.print, Node.pieces, String.toList_append, List.append_assoc, List.cons_append]
  apply Typeset.name named
  apply Typeset.spaced op.piece op.plain_piece
  exact (assigned true).append (.statementEnd closed) (Typeset.begins_statementEnd closed)

/-- An assignment to a printable property can be printed. -/
theorem propertyAssignment {target : Node} (op : AssignOp) {value : Node}
    (owner : target.Printable) (assigned : value.Printable) :
    (Node.propertyAssignment target op value).Printable := by
  intro closed
  simp only [Node.print, Node.pieces, String.toList_append, List.append_assoc, List.cons_append]
  apply (owner true).append
  · apply Typeset.blank (.inl rfl)
    apply Typeset.spaced op.piece op.plain_piece
    exact (assigned true).append (.statementEnd closed) (Typeset.begins_statementEnd closed)
  · exact begins_cons (by decide : continuesIdentifier ' ' = false) (by decide)

/-- An expression statement is printed like its expression, with the end behind it. -/
theorem expression {value : Node} (inner : value.Printable) :
    (Node.expression value).Printable := by
  intro closed
  simp only [Node.print, Node.pieces, String.toList_append]
  exact (inner true).append (.statementEnd closed) (Typeset.begins_statementEnd closed)

/-- A condition in parentheses in front of a body and of what follows it. -/
theorem guarded {condition : Node} {statements : List Node} (guard : condition.Printable)
    (body : PrintableBody statements) {chars : List Char} {pieces : List Piece}
    (later : Typeset chars pieces) (begins : Begins chars) :
    Typeset ('(' :: ((condition.print true).toList ++
        (')' :: ' ' :: ((bracedBody (Node.printList statements)).toList ++ chars))))
      (Piece.guarded (condition.pieces true) (Node.piecesList statements) ++ pieces) := by
  have shown : Piece.guarded (condition.pieces true) (Node.piecesList statements) ++ pieces =
      .bracket "(" :: (condition.pieces true ++
        .bracket ")" :: (Piece.braced (Node.piecesList statements) ++ pieces)) := by
    simp [Piece.guarded]
  rw [shown]
  apply Typeset.lone (.bracket "(") (by decide)
  apply (guard true).append
  · apply Typeset.spaced (.bracket ")") (by decide)
    exact Typeset.append body later begins
  · exact begins_cons (by decide) (by decide)

/-- The branches of a conditional follow the body before them. -/
theorem branches {branches : List Branch} (guards : ∀ branch ∈ branches, branch.condition.Printable)
    (bodies : ∀ branch ∈ branches, PrintableBody branch.body) {chars : List Char}
    {pieces : List Piece} (begins : Begins chars) (later : Typeset chars pieces) :
    Begins ((Branch.printList branches).toList ++ chars) ∧
      Typeset ((Branch.printList branches).toList ++ chars)
        (Branch.piecesList branches ++ pieces) := by
  induction branches with
  | nil => exact ⟨begins, later⟩
  | cons branch branches inductionHypothesis =>
    obtain ⟨condition, body⟩ := branch
    rw [List.forall_mem_cons] at guards bodies
    obtain ⟨begins, typeset⟩ := inductionHypothesis guards.2 bodies.2
    have opening : " else if (".toList = [' ', 'e', 'l', 's', 'e', ' ', 'i', 'f', ' ', '('] := by
      decide
    have closing : ") ".toList = [')', ' '] := by decide
    simp only [Branch.printList, Branch.print, Branch.piecesList, Branch.pieces,
      String.toList_append, List.append_assoc, List.cons_append, opening, closing, List.nil_append]
    constructor
    · exact begins_cons (by decide) (by decide)
    · apply Typeset.blank (.inl rfl)
      apply Typeset.spaced (.word "else") (by decide)
      apply Typeset.spaced (.word "if") (by decide)
      exact guards.1.guarded bodies.1 typeset begins

/-- The text of the last branch keeps apart whatever is apart from the text in front of it. -/
theorem begins_elseText (elseBody : Option (List Node)) :
    Begins (Node.elseText elseBody).toList := by
  cases elseBody with
  | none => exact begins_nil
  | some body =>
    simp only [Node.elseText, String.toList_append]
    exact begins_cons (by decide : continuesIdentifier ' ' = false) (by decide)

/-- The last branch is set as its pieces, if there is one. -/
theorem elseText {elseBody : Option (List Node)}
    (last : ∀ statements, elseBody = some statements → PrintableBody statements) :
    Typeset (Node.elseText elseBody).toList (Node.elsePieces elseBody) := by
  cases elseBody with
  | none => exact .done
  | some body =>
    simp only [Node.elseText, Node.elsePieces, String.toList_append]
    apply Typeset.blank (.inl rfl)
    exact .spaced (.word "else") (by decide) (last body rfl)

/-- A conditional with printable conditions and bodies can be printed. -/
theorem conditional {condition : Node} {first : List Node} {elseIfs : List Branch}
    {elseBody : Option (List Node)} (guard : condition.Printable) (body : PrintableBody first)
    (guards : ∀ branch ∈ elseIfs, branch.condition.Printable)
    (bodies : ∀ branch ∈ elseIfs, PrintableBody branch.body)
    (last : ∀ statements, elseBody = some statements → PrintableBody statements) :
    (Node.conditional condition first elseIfs elseBody).Printable := by
  intro closed
  obtain ⟨begins, others⟩ :=
    branches guards bodies (begins_elseText elseBody) (elseText last)
  have opening : "if (".toList = ['i', 'f', ' ', '('] := by decide
  have closing : ") ".toList = [')', ' '] := by decide
  rw [Node.print_conditional]
  simp only [Node.pieces, String.toList_append, List.append_assoc, List.cons_append, opening,
    closing, List.nil_append]
  apply Typeset.spaced (.word "if") (by decide)
  exact guard.guarded body others begins

/-- A loop can be printed if its head and its body can: the third clause has no `;`. -/
theorem loop {init check increment : Node} {statements : List Node} (first : init.Printable)
    (second : check.Printable) (third : increment.Printable) (body : PrintableBody statements) :
    (Node.loop init check increment statements).Printable := by
  intro closed
  have opening : "for (".toList = ['f', 'o', 'r', ' ', '('] := by decide
  have between : "; ".toList = [';', ' '] := by decide
  have closing : ") ".toList = [')', ' '] := by decide
  simp only [Node.print, Node.pieces, String.toList_append, List.append_assoc, List.cons_append,
    opening, between, closing, List.nil_append]
  apply Typeset.spaced (.word "for") (by decide)
  apply Typeset.lone (.bracket "(") (by decide)
  apply (first false).append
  · apply Typeset.spaced .semicolon (by decide)
    apply (second false).append
    · apply Typeset.spaced .semicolon (by decide)
      apply (third false).append
      · exact .spaced (.bracket ")") (by decide) body
      · exact begins_cons (by decide) (by decide)
    · exact begins_cons (by decide) (by decide)
  · exact begins_cons (by decide) (by decide)

/-- A return statement can be printed, with a printable value or without one. -/
theorem returning {result : Option Node} (value : ∀ node, result = some node → node.Printable) :
    (Node.returning result).Printable := by
  intro closed
  cases result with
  | none =>
    simp only [Node.print, Node.pieces]
    exact .ended "return" (by decide)
  | some result =>
    simp only [Node.print, Node.pieces, Node.resultPieces, String.toList_append, List.append_assoc]
    apply Typeset.spaced (.word "return") (by decide)
    apply (value result rfl true).append
    · exact .lone .semicolon (by decide) .done
    · exact begins_cons (by decide) (by decide)

/-- A break statement can be printed. -/
theorem breaking : Node.breaking.Printable := by
  intro closed
  simp only [Node.print, Node.pieces]
  exact .ended "break" (by decide)

/-- A precision statement of two names can be printed. -/
theorem precision {level ty : String} (graded : isNameText level = true)
    (typed : isNameText ty = true) : (Node.precision level ty).Printable := by
  intro closed
  simp only [Node.print, Node.pieces, String.toList_append, List.append_assoc]
  apply Typeset.spaced (.word "precision") (by decide)
  apply Typeset.name graded
  exact .ended ty (Piece.plain_word typed).lexical

/-- A function with printable body can be printed, if its types and names are names. -/
theorem function {returnType name : String} {params : List Param} {statements : List Node}
    (typed : isNameText returnType = true) (named : isNameText name = true)
    (declared : ∀ param ∈ params, isNameText param.ty = true ∧ isNameText param.name = true)
    (body : PrintableBody statements) :
    (Node.function returnType name params statements).Printable := by
  intro closed
  have each : ∀ param ∈ params, Typeset param.render.toList param.pieces := by
    intro param member
    obtain ⟨typed, named⟩ := declared param member
    rw [Param.render, String.toList_append, String.toList_append, List.append_assoc,
      ← List.append_nil param.name.toList]
    apply Typeset.name typed
    exact .loose (.word param.name) (Piece.plain_word named).lexical (.inl rfl) begins_nil .done
  have closing : ") ".toList = [')', ' '] := by decide
  simp only [Node.print, Node.pieces, String.toList_append, List.append_assoc, List.cons_append,
    closing, List.nil_append]
  apply Typeset.name typed
  apply Typeset.loose (.word name) (Piece.plain_word named).lexical (.inl rfl)
  · exact begins_cons (by decide) (by decide)
  · apply Typeset.lone (.bracket "(") (by decide)
    apply Typeset.listed each
    · exact begins_cons (by decide) (by decide)
    · exact .spaced (.bracket ")") (by decide) body

end Node.Printable

/-- The text of every node of a program is typeset from its pieces. -/
theorem Shaped.printable {category : Category} {node : Node} (shaped : Shaped category node) :
    node.Printable := by
  induction shaped with
  | @float text written =>
    exact .single ⟨.float, text⟩ written (by simp) (fun _ => rfl) fun _ => rfl
  | @int text written =>
    exact .single ⟨.integer, text⟩ written (by simp) (fun _ => rfl) fun _ => rfl
  | @reference name named =>
    exact .single (.word name) (Piece.plain_word named).lexical (.inl rfl) (fun _ => rfl)
      fun _ => rfl
  | parenthesized _ inner => exact .parenthesized inner
  | call _ _ called given => exact .call called given
  | property _ named owner => exact .property owner named
  | @trailingCrement op _ _ _ stepped => exact .trailingCrement op stepped
  | @unary op _ inner found => exact .unary op (inner.opensExpression rfl) found
  | @leadingCrement op _ _ _ stepped => exact .leadingCrement op stepped
  | @binary ops operands _ count _ found =>
    have filled : operands ≠ [] := by
      rintro rfl
      simp at count
    exact .binary ops filled found
  | declaration typed named _ value => exact .declaration typed named value none
  | @qualified qualifier _ _ _ typed named _ value =>
    exact .declaration typed named value (some qualifier)
  | @assignment _ op _ named _ assigned => exact .assignment op named assigned
  | @propertyAssignment _ op _ _ _ _ owner assigned => exact .propertyAssignment op owner assigned
  | expression _ inner => exact .expression inner
  | empty => exact Typeset.statementEnd
  | conditional _ shaped _ branches last guard body guards bodies lastBody =>
    apply Node.Printable.conditional guard (.of_statements body shaped) guards
    · intro branch member
      exact .of_statements (bodies branch member) (branches branch member)
    · intro statements same
      exact .of_statements (lastBody statements same) (last statements same)
  | loop _ _ _ shaped first second third body =>
    exact .loop first second third (.of_statements body shaped)
  | returning _ value => exact .returning value
  | breaking => exact .breaking
  | precision graded typed => exact .precision graded typed
  | function typed named declared shaped body =>
    exact .function typed named declared (.of_statements body shaped)
  | ofPrimary _ found | ofOperand _ found | ofClause _ found | ofStatement _ found => exact found

/-- The text of a shaped program is set as its pieces. -/
theorem ShapedProgram.typeset {nodes : List Node} (shaped : ShapedProgram nodes) :
    Typeset (renderProgram nodes).toList (programPieces nodes) :=
  .lines fun node member => (shaped node member).printable true

/-- The text of a program is read completely, and its tokens show the pieces of the program. -/
theorem ShapedProgram.tokens? {nodes : List Node} (shaped : ShapedProgram nodes) :
    ∃ tokens, (tokenize (renderProgram nodes)).tokens? = .ok tokens ∧
      tokens.map Token.piece = programPieces nodes := by
  obtain ⟨complete, same⟩ := shaped.typeset.ofChars 0
  exact ⟨(tokenize (renderProgram nodes)).tokens, Lexed.tokens?_of_remainder complete, same⟩

end ShaderSource
