import ShaderSource.Proofs.Grammar.ExpressionCompleteness
import ShaderSource.Proofs.Grammar.Soundness

/-!
# How the parts of a statement are read back

Each rule of a statement takes the pieces of its statement, if the expressions
and the statements in it are read from theirs. Two rules have to read far before
they fail: a declaration that turns out to be a function, and an assignment to a
property that turns out to be an expression.
-/

namespace ShaderSource

open Grammar Production Attempt

/-- What can follow the pieces of a statement. A clause stands before a `;` or a `)`, and any
    other statement before no `else`. -/
def Follows : Category → List Piece → Prop
  | .clause, later => later.head? = some .semicolon ∨ later.head? = some (.bracket ")")
  | _, later => ∀ piece, later.head? = some piece → piece.text ≠ "else"

/-- The pieces before which an expression in a statement ends. -/
def Piece.isEnd (piece : Piece) : Prop := piece = .semicolon ∨ piece = .bracket ")"

/-- Behind its last expression a statement goes on with its `;`, or a clause is at its end. -/
theorem Follows.ends {category : Category} (stated : category.isStatement = true)
    {later : List Piece} (follows : Follows category later) :
    ∃ piece rest, Piece.statementEnd category.closed ++ later = piece :: rest ∧ piece.isEnd := by
  cases category with
  | primary | operand | expression => exact Bool.noConfusion stated
  | statement | top => exact ⟨.semicolon, later, rfl, .inl rfl⟩
  | clause =>
    cases later with
    | nil => simp [Follows] at follows
    | cons piece rest => exact ⟨piece, rest, rfl, by simpa [Follows, Piece.isEnd] using follows⟩

namespace Piece

/-- An expression ends before the end of a statement. -/
theorem isEnd.halts {piece : Piece} (ends : piece.isEnd) : piece.halts = true := by
  rcases ends with rfl | rfl <;> decide

/-- A value can be followed by the end of its statement. -/
theorem isEnd.continuesValue {piece : Piece} (ends : piece.isEnd) :
    piece.continuesValue = true := by
  rcases ends with rfl | rfl <;> decide

end Piece

variable {grammar : Grammar}

namespace Grammar

variable [grammar.Arranged] {levels : Nat} {flags : Flags} {subject : Option Node}

/-- A rule rejects pieces with a first one that it cannot begin with. -/
theorem rejects_first {production : Production} {first : Piece} {rest : List Piece}
    (closed : production.opens first = false) :
    production.build.Rejects (grammar.setting (levels + 2) flags subject) (first :: rest) := by
  have enough : production.lookahead ≤ levels + 2 := by cases production <;> simp [lookahead]
  apply rejects_of_opens enough
  intro piece shown
  obtain rfl := Option.some.inj shown
  exact closed

/-- A statement is read by a rule that takes it, if no rule of any statement that may precede
    it does. -/
theorem statement_takes (production : Production) {category : Category}
    (stated : category.isStatement = true)
    (eligible : production.flags.intersects category.flags = true)
    {taken later : List Piece} {node : Node}
    (rejected : ∀ other ∈ Production.eligible .root, other.mayPrecede production = true →
      other.build.Rejects (grammar.setting levels category.flags none) (taken ++ later))
    (takes : production.build.Takes (grammar.setting levels category.flags none) taken later
      fun read => read = node) :
    (grammar.reader (levels + 1)).Takes category.flags none taken later node := by
  refine reader_takes production (List.mem_filter.mpr ⟨mem_all production, eligible⟩)
    (fun other member precedes => rejected other ?_ precedes) takes
  cases category with
  | primary | operand | expression => exact Bool.noConfusion stated
  | top => exact member
  | clause =>
    have all : ∀ other ∈ Production.eligible .simple, other ∈ Production.eligible .root := by decide
    exact all other member
  | statement =>
    have all : ∀ other ∈ Production.eligible .statement, other ∈ Production.eligible .root := by
      decide
    exact all other member

/-- A statement is read by a rule that takes it, if no other rule of any statement can begin with
    its first piece. -/
theorem statement_takes_of_first (production : Production) {category : Category}
    (stated : category.isStatement = true)
    (eligible : production.flags.intersects category.flags = true)
    {first : Piece} {taken later : List Piece} {node : Node}
    (others : ∀ other ∈ Production.eligible .root, other.mayPrecede production = true →
      other.opens first = false)
    (takes : production.build.Takes (grammar.setting (levels + 2) category.flags none)
      (first :: taken) later fun read => read = node) :
    (grammar.reader (levels + 3)).Takes category.flags none (first :: taken) later node :=
  statement_takes production stated eligible
    (fun other member precedes => rejects_first (others other member precedes)) takes

/-- A statement that begins with a name is read by a rule that takes it, if the other rules that
    can begin with a name reject it. -/
theorem statement_takes_of_name (production : Production) {category : Category}
    (stated : category.isStatement = true)
    (eligible : production.flags.intersects category.flags = true) {name : String}
    (named : isNameText name = true) {taken later : List Piece} {node : Node}
    (others : ∀ other ∈
        [declaration, function, assignment, propertyAssignment, expressionStatement],
      other.mayPrecede production = true →
        other.build.Rejects (grammar.setting (levels + 2) category.flags none)
          (.word name :: (taken ++ later)))
    (takes : production.build.Takes (grammar.setting (levels + 2) category.flags none)
      (.word name :: taken) later fun read => read = node) :
    (grammar.reader (levels + 3)).Takes category.flags none (.word name :: taken) later node := by
  refine statement_takes production stated eligible (fun other member precedes => ?_) takes
  by_cases opened : other.opens (.word name) = true
  · exact others other (mem_of_opens_name named member opened) precedes
  · exact rejects_first (Bool.eq_false_of_not_eq_true opened)

/-- No statement is found at the end of a list of them. -/
theorem statement_refuses (levels : Nat) (flags : Flags) {pieces : List Piece}
    (other : ∀ piece, pieces.head? = some piece → piece = .bracket "\x7d") :
    (grammar.reader (levels + 3)).Refuses flags none pieces := by
  apply reader_refuses
  intro production _
  have enough : production.lookahead ≤ levels + 2 := by cases production <;> simp [lookahead]
  apply rejects_of_opens enough
  intro piece shown
  obtain rfl := other piece shown
  cases production <;> decide

end Grammar

namespace Production

variable {levels : Nat} {flags : Flags} {subject : Option Node} {later : List Piece}

section Parts

/-- Statements in braces are read, each in front of those that follow it. -/
theorem takes_body [grammar.Arranged] {statements : List Node}
    (shaped : ∀ node ∈ statements, Shaped .statement node)
    (each : ∀ node ∈ statements, ∀ following, Follows .statement following →
      (grammar.reader (levels + 3)).Takes .statement none (node.pieces true) following node) :
    body.Takes (grammar.setting (levels + 3) flags subject)
      (Piece.braced (Node.piecesList statements)) later
      fun read => read = statements := by
  have split : Piece.braced (Node.piecesList statements) =
      .bracket "\x7b" :: (statements.flatMap (Node.pieces true) ++ [.bracket "\x7d"]) := by
    simp [Piece.braced, Node.piecesList_eq_map, List.flatMap]
  rw [split]
  apply (takes_word (.bracket "\x7b")).bind
  intro _ _
  have ends : (grammar.reader (levels + 3)).Refuses .statement none (.bracket "\x7d" :: later) :=
    statement_refuses levels .statement fun piece shown => (Option.some.inj shown).symm
  refine (takes_nodes ends ?_ ?_).bind fun read same => ?_
  · intro piece shown
    obtain rfl := Option.some.inj shown
    rfl
  · intro before node after order
    have member : node ∈ statements := by simp [order]
    refine ⟨(shaped node member).pieces_ne_nil, each node member _ fun piece shown => ?_⟩
    cases after with
    | nil =>
      obtain rfl := Option.some.inj shown
      decide
    | cons next after =>
      have known := shaped next (by simp [order])
      rw [List.flatMap_cons, List.append_assoc,
        List.head?_append_of_ne_nil _ known.pieces_ne_nil] at shown
      exact known.head_ne_else shown
  refine (takes_word (.bracket "\x7d")).close fun _ _ => Takes.pure same

/-- A condition is read up to its closing bracket, and then the statements it guards. -/
theorem takes_guarded {condition : Node} {statements : List Node} {braces : List Piece}
    (guard : ∀ following, Halted following →
      (grammar.reader levels).Takes .value none (condition.pieces true) following condition)
    (inner : body.Takes (grammar.setting levels flags subject) braces later
      fun read => read = statements) :
    guarded.Takes (grammar.setting levels flags subject)
      (.bracket "(" :: (condition.pieces true ++ .bracket ")" :: braces)) later
        fun read => read = (condition, statements) := by
  have closing : (Piece.bracket ")").halts = true := by decide
  refine (takes_word (.bracket "(")).bind fun _ _ => ?_
  apply (takes_node (guard _ (Halted.cons closing (braces ++ later)))).bind
  intro read same
  refine (takes_word (.bracket ")")).bind fun _ _ => ?_
  refine inner.close fun read' same' => Takes.pure ?_
  rw [same, same']

/-- Without an `=` a declaration has no value. -/
theorem takes_readInitial_none (other : ∀ piece, later.head? = some piece → piece.text ≠ "=") :
    readInitial.Takes (grammar.setting levels flags subject) [] later fun read => read = none := by
  refine (takes_token?_none fun shown same => ?_).skip fun shown none => ?_
  · exact beq_false_of_ne (other shown.piece same)
  · subst none
    exact Takes.pure rfl

/-- The value of a declaration is read behind its `=`, if it has one. -/
theorem takes_readInitial {initial : Option Node}
    (ends : ∃ piece rest, later = piece :: rest ∧ piece.isEnd)
    (each : ∀ value, initial = some value → ∀ following, Halted following →
      (grammar.reader levels).Takes .value none (value.pieces true) following value) :
    readInitial.Takes (grammar.setting levels flags subject) (Node.initialPieces initial) later
      fun read => read = initial := by
  obtain ⟨piece, rest, rfl, ends⟩ := ends
  cases initial with
  | none =>
    apply takes_readInitial_none
    intro first shown
    obtain rfl := Option.some.inj shown
    rcases ends with rfl | rfl <;> decide
  | some value =>
    refine (takes_token? fun shown same => ?_).bind fun shown known => ?_
    · have text : shown.text = "=" := congrArg Piece.text same
      simp [Token.hasText, text]
    · obtain ⟨token, rfl, _⟩ := known
      apply (takes_node (each value rfl _ (Halted.cons ends.halts rest))).map
      intro read same
      rw [same]

end Parts

section Clauses

variable {category : Category}

/-- The `;` of a statement is taken if its category has one. -/
theorem takes_end (stated : category.isStatement = true) :
    endStatement.Takes (grammar.setting levels category.flags none) (Piece.statementEnd category.closed)
      later fun _ => True :=
  takes_endStatement (Category.closed_eq stated)

/-- A declaration is read up to what follows it, with its value if it has one. -/
theorem takes_readDeclaration {ty name : String} {initial : Option Node}
    (stated : category.isStatement = true) (typed : isNameText ty = true)
    (named : isNameText name = true) (follows : Follows category later)
    (each : ∀ value, initial = some value → ∀ following, Halted following →
      (grammar.reader levels).Takes .value none (value.pieces true) following value) :
    readDeclaration.Takes (grammar.setting levels category.flags none)
      (.word ty :: .word name :: (Node.initialPieces initial ++ Piece.statementEnd category.closed))
      later fun read => read = .declaration none ty name initial := by
  refine (takes_readQualifier_none fun piece shown => ?_).skip fun qualifier none => ?_
  · obtain rfl := Option.some.inj shown
    exact unqualified_of_ne fun text reserved => ne_of_isNameText typed reserved
  subst none
  refine takes_flags.skip fun _ _ => (takes_validate rfl).skip fun _ _ => ?_
  refine (takes_nameText typed).bind fun ty' same => (takes_nameText named).bind fun name' same' => ?_
  apply (takes_readInitial (follows.ends stated) each).bind
  intro value same''
  refine (takes_end stated).close fun _ _ => Takes.pure ?_
  rw [same, same', same'']

/-- An assignment is read up to what follows it. -/
theorem takes_readAssignment {name : String} {op : AssignOp} {value : Node}
    (stated : category.isStatement = true) (named : isNameText name = true)
    (follows : Follows category later)
    (inner : ∀ following, Halted following →
      (grammar.reader levels).Takes .value none (value.pieces true) following value) :
    readAssignment.Takes (grammar.setting levels category.flags none)
      (.word name :: op.piece :: (value.pieces true ++ Piece.statementEnd category.closed)) later
        fun read => read = .assignment name op value := by
  obtain ⟨piece, rest, shown, ends⟩ := follows.ends stated
  refine (takes_nameText named).bind fun name' same => (takes_assignOp op).bind fun op' same' => ?_
  apply (takes_node (inner _ (shown ▸ Halted.cons ends.halts rest))).bind
  intro value' same''
  refine (takes_end stated).close fun _ _ => Takes.pure ?_
  rw [same, same', same'']

/-- An assignment to a property is read behind the property. -/
theorem takes_readPropertyAssignment {target : Node} {op : AssignOp} {value : Node}
    (stated : category.isStatement = true) (property : target.isProperty = true)
    (follows : Follows category later)
    (owner : ∀ following, Halted following →
      (grammar.reader levels).Takes .value none (target.pieces true) following target)
    (inner : ∀ following, Halted following →
      (grammar.reader levels).Takes .value none (value.pieces true) following value) :
    readPropertyAssignment.Takes (grammar.setting levels category.flags none)
      (target.pieces true ++
        (op.piece :: (value.pieces true ++ Piece.statementEnd category.closed))) later
        fun read => read = .propertyAssignment target op value := by
  obtain ⟨piece, rest, shown, ends⟩ := follows.ends stated
  have assigns : op.piece.halts = true := by cases op <;> decide
  apply (takes_node (owner _ (Halted.cons assigns _))).bind
  intro target' same
  subst same
  refine (takes_validate property).skip fun _ _ => (takes_assignOp op).bind fun op' same' => ?_
  apply (takes_node (inner _ (shown ▸ Halted.cons ends.halts rest))).bind
  intro value' same''
  refine (takes_end stated).close fun _ _ => Takes.pure ?_
  rw [same', same'']

/-- An expression is no assignment, since none of its operators follows it. -/
theorem rejects_readPropertyAssignment {value : Node} (stated : category.isStatement = true)
    (follows : Follows category later)
    (inner : ∀ following, Halted following →
      (grammar.reader levels).Takes .value none (value.pieces true) following value) :
    readPropertyAssignment.Rejects (grammar.setting levels category.flags none)
      (value.pieces true ++ (Piece.statementEnd category.closed ++ later)) := by
  obtain ⟨piece, rest, shown, ends⟩ := follows.ends stated
  rw [shown]
  apply (takes_node (inner _ (Halted.cons ends.halts rest))).rejects
  intro target same
  cases property : target.isProperty with
  | false => exact (rejects_validate rfl).bind
  | true =>
    refine (takes_validate rfl).skip_rejects fun _ _ => (Rejects.bind ?_).bind
    apply rejects_token
    intro token first
    have kind : token.kind = piece.kind := congrArg Piece.kind (Option.some.inj first).symm
    rcases ends with rfl | rfl <;> simp [Token.hasKind, kind, Piece.semicolon, Piece.marker, Piece.bracket]

/-- A name before something that ends an expression is read as a reference, which is no property. -/
theorem rejects_readPropertyAssignment_of_name {name : String}
    (reference : (grammar.reader levels).Takes .value none [.word name] later (.reference name)) :
    readPropertyAssignment.Rejects (grammar.setting levels flags subject) (.word name :: later) := by
  rw [← List.singleton_append]
  apply (takes_node reference).rejects
  intro target same
  subst same
  exact (rejects_validate rfl).bind

/-- A name is a statement by itself only before a `;`. -/
theorem rejects_readExpressionStatement_of_names {name second : String} {rest : List Piece}
    (closed : flags.contains .simple = false) (named : isNameText second = true)
    (reference : (grammar.reader levels).Takes .value none [.word name] (.word second :: rest)
      (.reference name)) :
    readExpressionStatement.Rejects (grammar.setting levels flags subject)
      (.word name :: .word second :: rest) := by
  rw [← List.singleton_append]
  apply (takes_node reference).rejects
  intro value _
  refine (rejects_endStatement closed ?_).bind
  have unnamed : isNameText ";" = false := by decide
  rintro rfl
  rw [unnamed] at named
  exact Bool.noConfusion named

/-- An expression is a statement up to what follows it. -/
theorem takes_readExpressionStatement {value : Node} (stated : category.isStatement = true)
    (follows : Follows category later)
    (inner : ∀ following, Halted following →
      (grammar.reader levels).Takes .value none (value.pieces true) following value) :
    readExpressionStatement.Takes (grammar.setting levels category.flags none)
      (value.pieces true ++ Piece.statementEnd category.closed) later
        fun read => read = .expression value := by
  obtain ⟨piece, rest, shown, ends⟩ := follows.ends stated
  apply (takes_node (inner _ (shown ▸ Halted.cons ends.halts rest))).bind
  intro value' same
  refine (takes_end stated).close fun _ _ => Takes.pure ?_
  rw [same]

/-- The end of a statement alone is the empty statement. -/
theorem takes_readEmptyStatement (stated : category.isStatement = true)
    (follows : Follows category later) :
    readEmptyStatement.Takes (grammar.setting levels category.flags none)
      (Piece.statementEnd category.closed) later fun read => read = .empty := by
  apply takes_flags.skip
  intro shown same
  have ends : shown.contains .simple = !category.closed := by
    rw [← Category.closed_eq stated, Bool.not_not, same]
    rfl
  simp only [ends]
  cases category with
  | primary | operand | expression => exact Bool.noConfusion stated
  | statement | top => exact (takes_word .semicolon).close fun _ _ => Takes.pure rfl
  | clause =>
    cases later with
    | nil => simp [Follows] at follows
    | cons piece rest =>
      have found : (nextMatches (Token.hasTextAmong [";", ")"])).Takes
          (grammar.setting levels Category.clause.flags none) [] (piece :: rest)
            fun found => found = true := by
        apply takes_nextMatches
        intro shown same
        have text : shown.text = piece.text := congrArg Piece.text same
        rcases follows with ends | ends <;> obtain rfl := Option.some.inj ends <;>
          simp [Token.hasTextAmong, text, Piece.semicolon, Piece.marker, Piece.bracket]
      exact found.skip fun shown same => (takes_validate same).skip fun _ _ => Takes.pure rfl

end Clauses

section Statements

/-- A function is no declaration, since no value and no `;` follows its name. -/
theorem rejects_readDeclaration_function {returnType name : String} {rest : List Piece}
    (typed : isNameText returnType = true) (named : isNameText name = true)
    (closed : flags.contains .simple = false) :
    readDeclaration.Rejects (grammar.setting levels flags subject)
      (.word returnType :: .word name :: .bracket "(" :: rest) := by
  refine (takes_readQualifier_none fun piece shown => ?_).skip_rejects fun qualifier none => ?_
  · obtain rfl := Option.some.inj shown
    exact unqualified_of_ne fun text reserved => ne_of_isNameText typed reserved
  subst none
  refine takes_flags.skip_rejects fun _ _ => (takes_validate rfl).skip_rejects fun _ _ => ?_
  refine (takes_nameText typed).rejects fun _ _ => (takes_nameText named).rejects fun _ _ => ?_
  refine (takes_readInitial_none fun piece shown => ?_).skip_rejects fun _ _ => ?_
  · obtain rfl := Option.some.inj shown
    decide
  exact (rejects_endStatement closed (by decide)).bind

/-- A declaration is no function, since no bracket follows its name. -/
theorem rejects_readFunction_declaration {ty name : String} {initial : Option Node}
    (typed : isNameText ty = true) (named : isNameText name = true)
    (ends : ∃ piece rest, later = piece :: rest ∧ piece.isEnd) :
    readFunction.Rejects (grammar.setting levels flags subject)
      (.word ty :: .word name :: (Node.initialPieces initial ++ later)) := by
  refine (takes_nameText typed).rejects fun _ _ => (takes_nameText named).rejects fun _ _ => ?_
  refine (rejects_word fun piece shown => ?_).bind
  cases initial with
  | none =>
    obtain ⟨last, rest, rfl, ends⟩ := ends
    obtain rfl := Option.some.inj shown
    rcases ends with rfl | rfl <;> decide
  | some value =>
    obtain rfl := Option.some.inj shown
    decide

/-- A further branch with a condition is added to those made. -/
theorem takes_readElse_if {branch : Branch} (rounds : Nat) (made : List Branch)
    (inner : guarded.Takes (grammar.setting levels flags subject)
      (Piece.guarded (branch.condition.pieces true) (Node.piecesList branch.body)) later
        fun read => read = (branch.condition, branch.body)) :
    (readElse rounds (made, none)).Takes (grammar.setting levels flags subject) branch.pieces later
      fun read => read = (made ++ [branch], none) := by
  cases branch with
  | mk condition statements =>
    refine (takes_validate rfl).skip fun _ _ => (takes_word (.word "else")).bind fun _ _ => ?_
    refine (takes_token? fun shown same => ?_).bind fun shown known => ?_
    · have text : shown.text = "if" := congrArg Piece.text same
      simp [Token.hasText, text]
    · obtain ⟨token, rfl, _⟩ := known
      apply inner.close
      intro parts same
      subst same
      exact Takes.pure rfl

/-- The branch without a condition is the last one. -/
theorem takes_readElse_last {statements : List Node} (rounds : Nat) (made : List Branch)
    (inner : body.Takes (grammar.setting levels flags subject)
      (Piece.braced (Node.piecesList statements))
      later fun read => read = statements) :
    (readElse rounds (made, none)).Takes (grammar.setting levels flags subject)
      (Node.elsePieces (some statements)) later fun read => read = (made, some statements) := by
  refine (takes_validate rfl).skip fun _ _ => (takes_word (.word "else")).bind fun _ _ => ?_
  refine (takes_token?_none fun shown first => ?_).skip fun shown none => ?_
  · have text : shown.text = "\x7b" := congrArg Piece.text (Option.some.inj first).symm
    simp [Token.hasText, text]
  · subst none
    refine inner.close fun read same => Takes.pure ?_
    rw [same]

/-- The branches behind a conditional go on exactly before an `else`. -/
theorem any_else {place : Place} {pieces : List Piece} (split : place.pieces = pieces) :
    place.rest.head?.any (Token.hasText "else") = pieces.head?.any (·.text == "else") := by
  subst split
  exact place.any_head (·.text == "else")

/-- Each branch is read behind its `else`, and the last one without a condition too. -/
theorem takes_branches {branches : List Branch} {last : Option (List Node)}
    (follows : Follows .statement later)
    (each : ∀ branch ∈ branches, ∀ following,
      guarded.Takes (grammar.setting levels flags subject)
        (Piece.guarded (branch.condition.pieces true) (Node.piecesList branch.body)) following
          fun read => read = (branch.condition, branch.body))
    (ends : ∀ statements, last = some statements → ∀ following,
      body.Takes (grammar.setting levels flags subject)
        (Piece.braced (Node.piecesList statements)) following
        fun read => read = statements) (rounds : Nat) (made : List Branch) :
    (repeatWhen (fun place => place.rest.head?.any (Token.hasText "else")) readElse rounds
        (made, none)).Takes (grammar.setting levels flags subject)
      (Branch.piecesList branches ++ Node.elsePieces last) later
        fun read => read = (made ++ branches, last) := by
  have stops : ∀ place : Place, place.pieces = later →
      place.rest.head?.any (Token.hasText "else") = false := by
    intro place split
    rw [any_else split, Option.any_eq_false]
    exact fun piece shown => beq_false_of_ne (follows piece shown)
  induction branches generalizing rounds made with
  | nil =>
    rw [List.append_nil, Branch.piecesList, List.nil_append]
    cases last with
    | none => exact takes_repeatWhen_stop stops
    | some statements =>
      rw [← List.append_nil (Node.elsePieces _)]
      refine takes_repeatWhen_step (fun place split => ?_) (List.cons_ne_nil _ _)
        (takes_readElse_last rounds made (ends statements rfl _)) (takes_repeatWhen_stop stops)
      rw [any_else split]
      rfl
  | cons branch branches inductionHypothesis =>
    have others := inductionHypothesis (fun other member => each other (by simp [member]))
      (rounds + 1) (made ++ [branch])
    rw [List.append_assoc, List.singleton_append] at others
    rw [Branch.piecesList, List.append_assoc]
    refine takes_repeatWhen_step (fun place split => ?_) ?_
      (takes_readElse_if rounds made (each branch (by simp) _)) others
    · rw [any_else split]
      cases branch
      rfl
    · cases branch
      exact List.cons_ne_nil _ _

/-- A conditional is read branch by branch: no `else` follows the last one. -/
theorem takes_readConditional {condition : Node} {statements : List Node} {elseIfs : List Branch}
    {last : Option (List Node)} (follows : Follows .statement later)
    (front : ∀ following,
      guarded.Takes (grammar.setting levels flags subject)
        (Piece.guarded (condition.pieces true) (Node.piecesList statements)) following
          fun read => read = (condition, statements))
    (each : ∀ branch ∈ elseIfs, ∀ following,
      guarded.Takes (grammar.setting levels flags subject)
        (Piece.guarded (branch.condition.pieces true) (Node.piecesList branch.body)) following
          fun read => read = (branch.condition, branch.body))
    (ends : ∀ statements, last = some statements → ∀ following,
      body.Takes (grammar.setting levels flags subject)
        (Piece.braced (Node.piecesList statements)) following
        fun read => read = statements) :
    readConditional.Takes (grammar.setting levels flags subject)
      (.word "if" :: (Piece.guarded (condition.pieces true) (Node.piecesList statements) ++
        (Branch.piecesList elseIfs ++ Node.elsePieces last))) later
          fun read => read = .conditional condition statements elseIfs last := by
  refine (takes_word (.word "if")).bind fun _ _ => (front _).bind fun parts same => ?_
  subst same
  apply (takes_branches follows each ends 0 []).close
  intro branches same
  subst same
  exact Takes.pure rfl

/-- The clauses of a loop are read each before its separator, the body behind them. -/
theorem takes_readLoop {init check increment : Node} {statements : List Node}
    (begins : ∀ following, Follows .clause following →
      (grammar.reader levels).Takes .simple none (init.pieces false) following init)
    (checks : ∀ following, Follows .clause following →
      (grammar.reader levels).Takes .simple none (check.pieces false) following check)
    (steps : ∀ following, Follows .clause following →
      (grammar.reader levels).Takes .simple none (increment.pieces false) following increment)
    (repeated : body.Takes (grammar.setting levels flags subject)
      (Piece.braced (Node.piecesList statements))
      later fun read => read = statements) :
    readLoop.Takes (grammar.setting levels flags subject)
      (.word "for" :: .bracket "(" :: (init.pieces false ++ .semicolon :: (check.pieces false ++
        .semicolon :: (increment.pieces false ++ .bracket ")" ::
          Piece.braced (Node.piecesList statements))))) later
            fun read => read = .loop init check increment statements := by
  refine (takes_word (.word "for")).bind fun _ _ => (takes_word (.bracket "(")).bind fun _ _ => ?_
  apply (takes_node (begins _ (.inl rfl))).bind
  intro init' same
  apply (takes_word .semicolon).bind
  intro _ _
  apply (takes_node (checks _ (.inl rfl))).bind
  intro check' same'
  apply (takes_word .semicolon).bind
  intro _ _
  apply (takes_node (steps _ (.inr rfl))).bind
  intro increment' same''
  refine (takes_word (.bracket ")")).bind fun _ _ => ?_
  refine repeated.close fun read known => Takes.pure ?_
  rw [same, same', same'', known]

/-- A return statement is read with its value, or without one before the `;`. -/
theorem takes_readReturn {result : Option Node}
    (opens : ∀ value, result = some value → OpensExpression (value.pieces true))
    (each : ∀ value, result = some value → ∀ following, Halted following →
      (grammar.reader levels).Takes .value none (value.pieces true) following value) :
    readReturn.Takes (grammar.setting levels flags subject)
      (.word "return" :: (Node.resultPieces result ++ [.semicolon])) later
        fun read => read = .returning result := by
  apply (takes_word (.word "return")).bind
  intro _ _
  cases result with
  | none =>
    refine (takes_nextMatches fun shown same => ?_).skip fun found same => ?_
    · have text : shown.text = ";" := congrArg Piece.text same
      simp [Token.hasText, text]
    · subst same
      simp only [if_true, pure_bind]
      exact (takes_word .semicolon).close fun _ _ => Takes.pure rfl
  | some value =>
    refine (takes_nextMatches_false fun shown first => ?_).skip fun found same => ?_
    · have known := opens value rfl
      rw [List.append_eq, Node.resultPieces, List.append_assoc,
        List.head?_append_of_ne_nil _ known.ne_nil] at first
      exact beq_false_of_ne (known.head_text_ne first .semicolon (by decide) (by decide))
    · subst same
      simp only [Bool.false_eq_true, if_false, bind_map_left]
      have ends : Piece.semicolon.halts = true := by decide
      apply (takes_node (each value rfl _ (Halted.cons ends later))).bind
      intro read same
      refine (takes_word .semicolon).close fun _ _ => Takes.pure ?_
      rw [same]

/-- A break statement is read. -/
theorem takes_readBreak :
    readBreak.Takes (grammar.setting levels flags subject) [.word "break", .semicolon] later
      fun read => read = .breaking :=
  (takes_word (.word "break")).bind fun _ _ =>
    (takes_word .semicolon).close fun _ _ => Takes.pure rfl

/-- A precision statement is read. -/
theorem takes_readPrecision {grade ty : String} (graded : isNameText grade = true)
    (typed : isNameText ty = true) :
    readPrecision.Takes (grammar.setting levels flags subject)
      [.word "precision", .word grade, .word ty, .semicolon] later
        fun read => read = .precision grade ty := by
  apply (takes_word (.word "precision")).bind
  intro _ _
  refine (takes_nameText graded).bind fun grade' same => (takes_nameText typed).bind fun ty' same' => ?_
  refine (takes_word .semicolon).close fun _ _ => Takes.pure ?_
  rw [same, same']

/-- A qualifier is read only at the top of a program. -/
theorem takes_readDeclaration_qualified (qualifier : Qualifier) {ty name : String}
    {initial : Option Node} (typed : isNameText ty = true) (named : isNameText name = true)
    (each : ∀ value, initial = some value → ∀ following, Halted following →
      (grammar.reader levels).Takes .value none (value.pieces true) following value) :
    readDeclaration.Takes (grammar.setting levels .root none)
      (qualifier.piece :: .word ty :: .word name :: (Node.initialPieces initial ++ [.semicolon]))
      later fun read => read = .declaration (some qualifier) ty name initial := by
  have front : readQualifier.Takes (grammar.setting levels .root none) [qualifier.piece]
      (.word ty :: .word name :: (Node.initialPieces initial ++ [.semicolon]) ++ later)
        fun read => read = some qualifier := by
    refine (takes_token? fun shown same => ?_).close fun shown known => ?_
    · have text : shown.text = qualifier.spelling := congrArg Piece.text same
      cases qualifier <;> simp [Token.hasTextAmong, text, Qualifier.all, Qualifier.spelling]
    · obtain ⟨token, rfl, same⟩ := known
      have text : token.text = qualifier.spelling := congrArg Piece.text same
      exact (takes_spelled (by rw [text, Qualifier.ofSpelling_spelling])).map fun _ same => by rw [same]
  apply front.bind
  intro read known
  subst known
  refine takes_flags.skip fun shown known => (takes_validate ?_).skip fun _ _ => ?_
  · subst known
    have rooted : Flags.root.contains .root = true := by decide
    exact rooted
  refine (takes_nameText typed).bind fun ty' same => (takes_nameText named).bind fun name' same' => ?_
  apply (takes_readInitial ⟨_, _, rfl, .inl rfl⟩ each).bind
  intro value same''
  have closing : endStatement.Takes (grammar.setting levels Category.top.flags none)
      (Piece.statementEnd Category.top.closed) later fun _ => True := takes_end rfl
  refine closing.close fun _ _ => Takes.pure ?_
  rw [same, same', same'']

/-- A parameter is added to those made, with a comma in front of all but the first. -/
theorem takes_readParam (rounds : Nat) (made : List Param) {param : Param}
    (typed : isNameText param.ty = true) (named : isNameText param.name = true) :
    (readParam rounds made).Takes (grammar.setting levels flags subject)
      ((if 0 < rounds then [Piece.comma] else []) ++ param.pieces) later
        fun read => read = made ++ [param] := by
  apply takes_separator.bind
  intro _ _
  refine (takes_nameText typed).bind fun ty same =>
    (takes_nameText named).close fun name same' => Takes.pure ?_
  rw [same, same']

/-- A function is read if its body is. -/
theorem takes_readFunction {returnType name : String} {params : List Param}
    {statements : List Node} (typed : isNameText returnType = true)
    (named : isNameText name = true)
    (declared : ∀ param ∈ params, isNameText param.ty = true ∧ isNameText param.name = true)
    (performed : body.Takes (grammar.setting levels flags subject)
      (Piece.braced (Node.piecesList statements)) later fun read => read = statements) :
    readFunction.Takes (grammar.setting levels flags subject)
      (.word returnType :: .word name :: .bracket "(" :: (Piece.listed (params.map Param.pieces) ++
        .bracket ")" :: Piece.braced (Node.piecesList statements))) later
          fun read => read = .function returnType name params statements := by
  refine (takes_nameText typed).bind fun ty' same => (takes_nameText named).bind fun name' same' => ?_
  refine (takes_word (.bracket "(")).bind fun _ _ => ?_
  refine (takes_separated (fun rounds made param _ member _ => ?_) (fun param member => ?_) rfl).bind
    fun params' same'' => ?_
  · exact takes_readParam rounds made (declared param member).1 (declared param member).2
  · refine ⟨.word param.ty, [.word param.name], rfl, fun closing => ?_⟩
    have unnamed : isNameText ")" = false := by decide
    have typed := (declared param member).1
    rw [show param.ty = ")" from closing, unnamed] at typed
    exact Bool.noConfusion typed
  refine (takes_word (.bracket ")")).bind fun _ _ => performed.close fun read known => Takes.pure ?_
  rw [same, same', same'', known]

end Statements

end Production

end ShaderSource
