import ShaderSource.Proofs.Grammar.ExpressionSoundness
import ShaderSource.Proofs.Grammar.Rejection

/-!
# Every expression is read back

The pieces of an expression are read as this expression, up to its last piece
and no further, wherever nothing follows that would go on with it. What stands
behind a value is read step by step, from the inside out, so the value is
followed through the whole rest of the chain.
-/

namespace ShaderSource

namespace Piece

/-- Whether an operand ends before a piece. -/
def settles (piece : Piece) : Bool :=
  piece.text != "(" && piece.text != "." && piece.kind != .crement

/-- Whether an expression ends before a piece. -/
def halts (piece : Piece) : Bool :=
  piece.settles && !([TokenKind.operator, .equality, .boolop].contains piece.kind)

/-- A name does not go on with what is before it. -/
theorem halts_word {name : String} (named : isNameText name = true) : (word name).halts = true := by
  have unnamed : ∀ text ∈ ["(", "."], isNameText text = false := by decide
  have other : ∀ text ∈ ["(", "."], name ≠ text := by
    rintro text member rfl
    rw [unnamed name member] at named
    exact Bool.noConfusion named
  simp [halts, settles, word, other "(" (by simp), other "." (by simp)]

end Piece

/-- An operand ends before some pieces. -/
def Settled (later : List Piece) : Prop :=
  ∀ piece, later.head? = some piece → piece.settles = true

/-- An expression ends before some pieces. -/
def Halted (later : List Piece) : Prop := ∀ piece, later.head? = some piece → piece.halts = true

/-- An expression ends before some pieces if it ends before the first of them. -/
theorem Halted.cons {piece : Piece} (halts : piece.halts = true) (rest : List Piece) :
    Halted (piece :: rest) := fun _ shown => Option.some.inj shown ▸ halts

/-- Where an expression ends, its last operand does. -/
theorem Halted.settled {later : List Piece} (halted : Halted later) : Settled later := by
  intro piece shown
  have halts := halted piece shown
  simp only [Piece.halts, Bool.and_eq_true] at halts
  exact halts.1

open Grammar Production Attempt

/-- The pieces of a value, an operand or an expression are read as it, on every level on which
    it is nested within the limit. A value is read with whatever is written behind it. -/
def ReadBack (grammar : Grammar) : Category → Node → Prop
  | .primary, node => ∀ {limit levels level flags subject middle later} {condition : Node → Prop},
      node.Within limit level → levels + level = limit →
        (trailingChain node).Takes (grammar.setting (levels + 1) flags subject) middle later condition →
          readOperand.Takes (grammar.setting (levels + 1) flags subject)
            (node.pieces true ++ middle) later
            condition
  | .operand, node => ∀ {limit levels level flags subject later},
      node.Within limit level → levels + level = limit → Settled later →
        readOperand.Takes (grammar.setting (levels + 1) flags subject) (node.pieces true) later
          fun read => read = node
  | .expression, node => ∀ {limit levels level later},
      node.Within limit level → levels + level = limit → Halted later →
        (grammar.reader (levels + 2)).Takes .value none (node.pieces true) later node
  | _, _ => True

variable {grammar : Grammar}

namespace Grammar

variable {levels : Nat} {flags : Flags} {subject : Option Node}

section Arranged

variable [grammar.Arranged]

/-- A reader takes what an eligible rule takes, if no other one can begin with the first
    piece. -/
theorem reader_takes_of_opens (production : Production) {first : Piece} {taken later : List Piece}
    {node : Node} (eligible : production ∈ Production.eligible flags)
    (others : ∀ other ∈ Production.eligible flags, other ≠ production →
      other.lookahead = 0 ∧ other.opens first = false)
    (takes : production.build.Takes (grammar.setting levels flags subject) (first :: taken) later
      fun read => read = node) :
    (grammar.reader (levels + 1)).Takes flags subject (first :: taken) later node := by
  refine reader_takes production eligible (fun other member precedes => ?_) takes
  simp only [mayPrecede, Bool.and_eq_true, bne_iff_ne] at precedes
  obtain ⟨direct, closed⟩ := others other member precedes.1
  apply rejects_direct direct
  intro piece shown
  obtain rfl := Option.some.inj shown
  exact closed

/-- In the contexts of chains and operands there is one rule only. -/
theorem expression_takes {taken later : List Piece} {node : Node}
    (alone : Production.eligible flags = [.expression])
    (takes : readExpression.Takes (grammar.setting levels flags subject) taken later
      fun read => read = node) :
    (grammar.reader (levels + 1)).Takes flags subject taken later node := by
  refine reader_takes .expression (by simp [alone]) (fun other member precedes => ?_) takes
  rw [alone, List.mem_singleton] at member
  subst member
  exact absurd precedes (by decide)

/-- A reader takes what a rule for a single value takes, whose first piece belongs to this rule. -/
theorem single_takes (production : Production) {first : Piece} {taken later : List Piece}
    {node : Node} (eligible : production ∈ Production.eligible .single)
    (lexical : first.isLexical = true) (opened : production.opens first = true)
    (takes : production.build.Takes (grammar.setting levels .single subject) (first :: taken) later
      fun read => read = node) :
    (grammar.reader (levels + 1)).Takes .single subject (first :: taken) later node := by
  have direct : ∀ other ∈ Production.eligible .single, other.lookahead = 0 := by decide
  refine reader_takes_of_opens production eligible (fun other member apart => ?_) takes
  exact ⟨direct other member, closed_of_single eligible member apart lexical opened⟩

end Arranged

/-- A single value with everything that is written behind it. -/
theorem takes_readOperand {taken middle later : List Piece} {first : Node}
    {condition : Node → Prop}
    (single : (grammar.reader levels).Takes .single none taken (middle ++ later) first)
    (trailing : (trailingChain first).Takes (grammar.setting levels flags subject) middle later
      condition) :
    readOperand.Takes (grammar.setting levels flags subject) (taken ++ middle) later condition := by
  apply (takes_node single).bind
  intro read same
  subst same
  exact trailing

/-- Nothing is written behind a value before something that ends it. -/
theorem trailing_refuses [grammar.Arranged] {later : List Piece} (settled : Settled later)
    (value : Node) :
    (grammar.reader (levels + 1)).Refuses .trailing (some value) later := by
  apply reader_refuses
  intro production eligible
  rw [eligible_trailing] at eligible
  simp only [List.mem_cons, List.not_mem_nil, or_false] at eligible
  apply rejects_direct
  · rcases eligible with rfl | rfl | rfl <;> rfl
  · intro piece shown
    have settles := settled piece shown
    simp only [Piece.settles, Bool.and_eq_true, bne_iff_ne] at settles
    obtain ⟨⟨noBracket, noPoint⟩, noStep⟩ := settles
    rcases eligible with rfl | rfl | rfl
    · exact beq_false_of_ne noBracket
    · exact beq_false_of_ne noPoint
    · exact beq_false_of_ne noStep

end Grammar

namespace Production

section Separated

variable {α : Type} {setting : Setting} {part : Nat → List α → Attempt (List α)}
  {pieces : α → List Piece} {later : List Piece}

/-- Each item of a list is read, in front of the comma or the bracket that follows it. -/
def TakesItems (setting : Setting) (part : Nat → List α → Attempt (List α))
    (pieces : α → List Piece) (items : List α) : Prop :=
  ∀ rounds made item following, item ∈ items →
    (following.head? = some Piece.comma ∨ following.head? = some (.bracket ")")) →
      (part rounds made).Takes setting
        ((if 0 < rounds then [Piece.comma] else []) ++ pieces item) following
          fun result => result = made ++ [item]

/-- The items behind the first one are read like all of them. -/
theorem TakesItems.tail {item : α} {items : List α}
    (each : TakesItems setting part pieces (item :: items)) :
    TakesItems setting part pieces items := by
  intro rounds made other following member
  exact each rounds made other following (List.mem_cons_of_mem item member)

/-- A repetition up to a closing bracket goes on before any other piece. -/
theorem goes_of_head {place : Place} {first : Piece} {rest : List Piece}
    (split : place.pieces = first :: rest) (other : first.text ≠ ")") :
    place.rest.head?.any (!Token.hasText ")" ·) = true := by
  refine (place.any_head (fun piece => !piece.text == ")")).trans ?_
  rw [split]
  simpa using other

/-- A repetition up to a closing bracket stops there. -/
theorem stops_of_head {place : Place} (closes : place.pieces.head? = some (.bracket ")")) :
    place.rest.head?.any (!Token.hasText ")" ·) = false := by
  refine (place.any_head (fun piece => !piece.text == ")")).trans ?_
  rw [closes]
  rfl

/-- Behind an item stands a comma or the closing bracket. -/
theorem head_of_closes (closes : later.head? = some (.bracket ")")) (pieces : α → List Piece)
    (others : List α) :
    (others.flatMap (fun item => .comma :: pieces item) ++ later).head? = some .comma ∨
      (others.flatMap (fun item => .comma :: pieces item) ++ later).head? =
        some (.bracket ")") := by
  cases others with
  | nil => exact .inr closes
  | cons => exact .inl rfl

/-- The items behind the first one are read one after the other, each behind its comma. -/
theorem takes_further (closes : later.head? = some (.bracket ")")) {items : List α}
    (each : TakesItems setting part pieces items) {rounds : Nat} (positive : 0 < rounds)
    (made : List α) :
    (repeatWhen (fun place => place.rest.head?.any (!Token.hasText ")" ·)) part rounds made).Takes
      setting (items.flatMap fun item => .comma :: pieces item) later
        fun result => result = made ++ items := by
  induction items generalizing rounds made with
  | nil =>
    rw [List.append_nil]
    apply takes_repeatWhen_stop
    intro place split
    exact stops_of_head (split ▸ closes)
  | cons item items inductionHypothesis =>
    have tail := inductionHypothesis each.tail (Nat.succ_pos rounds) (made ++ [item])
    rw [List.append_assoc] at tail
    have round := each rounds made item _ (List.mem_cons_self ..) (head_of_closes closes pieces items)
    rw [if_pos positive] at round
    exact takes_repeatWhen_step (fun place split => goes_of_head split (by decide)) (by simp)
      round tail

/-- The items of a list are read one after the other, up to its closing bracket. -/
theorem takes_separated {items : List α} (each : TakesItems setting part pieces items)
    (begins : ∀ item ∈ items, ∃ first rest, pieces item = first :: rest ∧ first.text ≠ ")")
    (closes : later.head? = some (.bracket ")")) :
    (repeatUntil (Token.hasText ")") part []).Takes setting (Piece.listed (items.map pieces)) later
      fun result => result = items := by
  cases items with
  | nil =>
    apply takes_repeatWhen_stop
    intro place split
    exact stops_of_head (split ▸ closes)
  | cons item others =>
    obtain ⟨first, rest, shown, other⟩ := begins item (by simp)
    have tail := takes_further closes each.tail Nat.one_pos [item]
    have round := each 0 [] item _ (List.mem_cons_self ..) (head_of_closes closes pieces others)
    rw [List.map_cons, Piece.listed, List.flatMap_map]
    refine takes_repeatWhen_step (fun place split => ?_) (by simp [shown]) round tail
    rw [shown] at split
    exact goes_of_head split other

/-- The comma before an item is taken unless the item is the first one. -/
theorem takes_separator {rounds : Nat} {later : List Piece} :
    (separator rounds).Takes setting (if 0 < rounds then [Piece.comma] else []) later
      fun _ => True := by
  by_cases positive : 0 < rounds
  · rw [if_pos positive]
    unfold separator
    simp only [positive, decide_true]
    refine (takes_tokenIf fun shown same => ?_).close fun _ _ => Takes.pure trivial
    have text : shown.text = "," := congrArg Piece.text same
    simp [Token.hasText, text]
  · rw [if_neg positive]
    unfold separator
    simp only [positive, decide_false]
    exact takes_tokenIf_false.skip fun _ _ => Takes.pure trivial

end Separated

section Values

variable {levels : Nat} {flags : Flags} {subject : Option Node} {later : List Piece}

/-- A float number is read as it is written. -/
theorem takes_readFloat (text : String) :
    readFloat.Takes (grammar.setting levels flags subject) [⟨.float, text⟩] later
      fun read => read = .float text := by
  refine (takes_token fun shown same => ?_).close fun shown same => Takes.pure ?_
  · have kind : shown.kind = .float := congrArg Piece.kind same
    simp [Token.hasKind, kind]
  · exact congrArg (fun piece => Node.float piece.text) same

/-- An integer is read as it is written. -/
theorem takes_readInt (text : String) :
    readInt.Takes (grammar.setting levels flags subject) [⟨.integer, text⟩] later
      fun read => read = .int text := by
  refine (takes_token fun shown same => ?_).close fun shown same => Takes.pure ?_
  · have kind : shown.kind = .integer := congrArg Piece.kind same
    simp [Token.hasKind, kind]
  · exact congrArg (fun piece => Node.int piece.text) same

/-- A name is read as a variable. -/
theorem takes_readReference {name : String} (named : isNameText name = true) :
    readReference.Takes (grammar.setting levels flags subject) [.word name] later
      fun read => read = .reference name := by
  refine (takes_nameText named).close fun read same => Takes.pure ?_
  rw [same]

/-- An expression between parentheses is read if it is read before the closing one. -/
theorem takes_readParenthesized {value : Node}
    (inner : (grammar.reader levels).Takes .value none (value.pieces true)
      (.bracket ")" :: later) value) :
    readParenthesized.Takes (grammar.setting levels flags subject)
      (.bracket "(" :: (value.pieces true ++ [.bracket ")"])) later
        fun read => read = .parenthesized value := by
  refine (takes_word (.bracket "(")).bind fun _ _ => ?_
  apply (takes_node inner).bind
  intro read same
  refine (takes_word (.bracket ")")).close fun _ _ => Takes.pure ?_
  rw [same]

/-- An operator is read with the operand behind it. -/
theorem takes_readUnary (op : UnaryOp) {value : Node}
    (inner : (grammar.reader levels).Takes .operand none (value.pieces true) later value) :
    readUnary.Takes (grammar.setting levels flags subject) (op.piece :: value.pieces true) later
      fun read => read = .unary op value := by
  refine (takes_token fun shown same => ?_).bind fun shown same => ?_
  · have text : shown.text = op.spelling := congrArg Piece.text same
    cases op <;> simp [Token.hasTextAmong, text, UnaryOp.all, UnaryOp.spelling]
  have text : shown.text = op.spelling := congrArg Piece.text same
  apply (takes_spelled (by rw [text, UnaryOp.ofSpelling_spelling])).skip
  intro read known
  refine (takes_node inner).close fun read same => Takes.pure ?_
  rw [known, same]

/-- A step is read with the operand behind it, if that can be stepped. -/
theorem takes_readLeadingCrement (op : CrementOp) {value : Node}
    (target : value.isCrementTarget = true)
    (inner : (grammar.reader levels).Takes .operand none (value.pieces true) later value) :
    readLeadingCrement.Takes (grammar.setting levels flags subject) (op.piece :: value.pieces true) later
      fun read => read = .crement op false value := by
  apply (takes_crementOp op).bind
  intro read known
  apply (takes_node inner).close
  intro read same
  subst known same
  exact (takes_validate target).skip fun _ _ => Takes.pure rfl

/-- The arguments of a call are read, each in front of what follows it. -/
theorem takes_arguments {args : List Node} (opens : ∀ arg ∈ args, OpensExpression (arg.pieces true))
    (each : ∀ arg ∈ args, ∀ following, Halted following →
      (grammar.reader levels).Takes .value none (arg.pieces true) following arg)
    (closes : later.head? = some (.bracket ")")) :
    (repeatUntil (Token.hasText ")") readArgument []).Takes (grammar.setting levels flags subject)
      (Piece.listed (Node.piecesList args)) later fun read => read = args := by
  rw [Node.piecesList_eq_map]
  refine takes_separated (fun rounds made arg following member follows => ?_)
    (fun arg member => ?_) closes
  · have halted : Halted following := by
      intro piece shown
      rcases follows with comma | bracket
      · obtain rfl := Option.some.inj (comma.symm.trans shown)
        decide
      · obtain rfl := Option.some.inj (bracket.symm.trans shown)
        decide
    apply takes_separator.bind
    intro _ _
    refine (takes_node (each arg member following halted)).close fun read same => Takes.pure ?_
    rw [same]
  · obtain ⟨first, rest, shown, _⟩ := opens arg member
    refine ⟨first, rest, shown, ?_⟩
    exact (opens arg member).head_text_ne (by rw [shown]; rfl) (.bracket ")") (by decide) (by decide)

variable {value : Node}

/-- The arguments of a call are read one by one, each in front of a comma or the closing
    parenthesis. -/
theorem takes_readCall {args : List Node} (opens : ∀ arg ∈ args, OpensExpression (arg.pieces true))
    (each : ∀ arg ∈ args, ∀ following, Halted following →
      (grammar.reader levels).Takes .value none (arg.pieces true) following arg) :
    readCall.Takes (grammar.setting levels flags (some value))
      (.bracket "(" :: (Piece.listed (Node.piecesList args) ++ [.bracket ")"])) later
        fun read => read = .call value args := by
  apply (takes_subject rfl).skip
  intro callee known
  refine (takes_word (.bracket "(")).bind fun _ _ => ?_
  apply (takes_arguments opens each rfl).bind
  intro read same
  refine (takes_word (.bracket ")")).close fun _ _ => Takes.pure ?_
  rw [known, same]

/-- A property is read behind its owner. -/
theorem takes_readProperty (property : String) :
    readProperty.Takes (grammar.setting levels flags (some value)) [.marker ".", .word property] later
      fun read => read = .property value property := by
  apply (takes_subject rfl).skip
  intro owner known
  apply (takes_word (.marker ".")).bind
  intro _ _
  refine (takes_token fun shown same => ?_).close fun shown same => Takes.pure ?_
  · have kind : shown.kind = .identifier := congrArg Piece.kind same
    simp [Token.hasKind, kind]
  · have text : shown.text = property := congrArg Piece.text same
    rw [known, text]

/-- A step is read behind its operand. -/
theorem takes_readTrailingCrement (op : CrementOp) (target : value.isCrementTarget = true) :
    readTrailingCrement.Takes (grammar.setting levels flags (some value)) [op.piece] later
      fun read => read = .crement op true value := by
  apply (takes_subject rfl).skip
  intro stepped known
  apply (takes_crementOp op).close
  intro read same
  subst known same
  exact (takes_validate target).skip fun _ _ => Takes.pure rfl

end Values

end Production

namespace Grammar

variable {levels : Nat} {flags : Flags} {subject : Option Node} {later : List Piece}

/-- In the context of an operand no operator is looked for behind it. -/
theorem operand_takes [grammar.Arranged] {node : Node} {taken : List Piece}
    (operand : readOperand.Takes (grammar.setting levels .operand none) taken later
      fun read => read = node) :
    (grammar.reader (levels + 1)).Takes .operand none taken later node := by
  refine expression_takes (by decide) ?_
  intro place split
  have single : Flags.operand.contains .operand = true := by decide
  rw [readExpression_operand single]
  exact operand place split

/-- An operator ends the operand before it. -/
theorem settled_links (settled : Settled later) (ops : List BinaryOp) (operands : List Node) :
    Settled (linkPieces ops operands ++ later) := by
  match ops, operands with
  | [], _ => exact settled
  | _ :: _, [] => exact settled
  | op :: ops, operand :: operands =>
    intro piece shown
    obtain rfl := Option.some.inj shown
    cases op <;> decide

/-- One round of a chain takes an operator and the operand behind it. -/
theorem takes_readLink (rounds : Nat) (made : List BinaryOp × List Node) (op : BinaryOp)
    {operand : Node}
    (inner : readOperand.Takes (grammar.setting levels flags subject) (operand.pieces true) later
      fun read => read = operand) :
    (readLink rounds made).Takes (grammar.setting levels flags subject)
      (op.piece :: operand.pieces true) later
        fun read => read = (made.1 ++ [op], made.2 ++ [operand]) := by
  refine (takes_token fun shown same => ?_).bind fun shown same => ?_
  · have kind : shown.kind = op.kind := congrArg Piece.kind same
    have text : shown.text = op.spelling := congrArg Piece.text same
    rw [Token.isBinaryOp, kind, text, BinaryOp.ofSpelling_spelling]
    cases op <;> rfl
  have text : shown.text = op.spelling := congrArg Piece.text same
  apply (takes_spelled (by rw [text, BinaryOp.ofSpelling_spelling])).skip
  intro read known
  refine inner.close fun read same => Takes.pure ?_
  rw [known, same]

/-- The operators of a chain and their operands are read in turn. -/
theorem takes_links (halted : Halted later) (ops : List BinaryOp) {operands : List Node}
    (rounds : Nat) (made : List BinaryOp × List Node) (paired : ops.length = operands.length)
    (each : ∀ operand ∈ operands, ∀ following, Settled following →
      readOperand.Takes (grammar.setting levels flags subject) (operand.pieces true) following
        fun read => read = operand) :
    (repeatWhen (fun place => place.rest.head?.any Token.isBinaryOp) readLink rounds made).Takes
      (grammar.setting levels flags subject) (linkPieces ops operands) later
        fun read => read = (made.1 ++ ops, made.2 ++ operands) := by
  let isBinaryOp (piece : Piece) : Bool :=
    [TokenKind.operator, .equality, .boolop].contains piece.kind &&
      (BinaryOp.ofSpelling piece.text).isOk
  induction ops generalizing operands rounds made with
  | nil =>
    obtain rfl := List.length_eq_zero_iff.mp paired.symm
    rw [List.append_nil, List.append_nil]
    apply takes_repeatWhen_stop
    intro place split
    apply (place.any_head isBinaryOp).trans
    rw [split]
    cases later with
    | nil => rfl
    | cons piece rest =>
      have halts := halted piece rfl
      simp only [Piece.halts, Bool.and_eq_true, Bool.not_eq_true'] at halts
      simp only [List.head?_cons, Option.any_some, isBinaryOp, halts.2, Bool.false_and]
  | cons op ops inductionHypothesis =>
    match operands, paired with
    | operand :: operands, paired =>
      rw [List.forall_mem_cons] at each
      have rest := inductionHypothesis (rounds + 1) (made.1 ++ [op], made.2 ++ [operand])
        (Nat.succ.inj paired) each.2
      simp only [List.append_assoc, List.singleton_append] at rest
      refine takes_repeatWhen_step (fun place split => ?_) (by simp) ?_ rest
      · apply (place.any_head isBinaryOp).trans
        rw [split]
        cases op <;> rfl
      · exact takes_readLink rounds made op (each.1 _ (settled_links halted.settled ops operands))

/-- A chain is read with all its operators, and a lone operand without any. -/
theorem takes_readExpression {first : Node} (ops : List BinaryOp) (operands : List Node)
    (chained : flags.contains .operand = false) (halted : Halted later)
    (paired : ops.length = operands.length)
    (each : ∀ operand ∈ first :: operands, ∀ following, Settled following →
      readOperand.Takes (grammar.setting levels flags subject) (operand.pieces true) following
        fun read => read = operand) :
    readExpression.Takes (grammar.setting levels flags subject)
      (first.pieces true ++ linkPieces ops operands) later
        fun read => read = if ops.isEmpty then first else .binary ops (first :: operands) := by
  rw [List.forall_mem_cons] at each
  apply (each.1 _ (settled_links halted.settled ops operands)).bind
  intro read same
  subst same
  apply takes_flags.skip
  intro shown known
  subst known
  simp only [setting, chained, Bool.false_eq_true, if_false]
  apply (takes_links halted ops 0 ([], []) paired each.2).close
  intro links same
  subst same
  cases ops with
  | nil => exact Takes.pure rfl
  | cons op ops => exact Takes.pure rfl

end Grammar

/-- What stands two levels further in leaves two levels to read it with. -/
theorem Shaped.exists_levels {category : Category} {node : Node} (shaped : Shaped category node)
    (valued : category.isStatement = false) {limit levels level : Nat}
    (within : node.Within limit (level + 2)) (deep : levels + level = limit) :
    ∃ fewer, levels = fewer + 2 ∧ fewer + (level + 2) = limit := by
  have bound := shaped.level_le valued within
  exact ⟨levels - 2, by omega, by omega⟩

namespace ReadBack

variable [grammar.Arranged]

section Primary

/-- A float number is read back. -/
theorem float {text : String} (written : Lexeme.floatText text.toList = true) :
    ReadBack grammar .primary (.float text) := by
  intro limit levels level flags subject middle later condition within deep trailing
  refine takes_readOperand ?_ trailing
  exact single_takes .float (by decide) written rfl (takes_readFloat _)

/-- An integer is read back. -/
theorem int {text : String} (written : Lexeme.integerText text.toList = true) :
    ReadBack grammar .primary (.int text) := by
  intro limit levels level flags subject middle later condition within deep trailing
  refine takes_readOperand ?_ trailing
  exact single_takes .int (by decide) written rfl (takes_readInt _)

/-- A variable is read back if its name is one. -/
theorem reference {name : String} (named : isNameText name = true) :
    ReadBack grammar .primary (.reference name) := by
  intro limit levels level flags subject middle later condition within deep trailing
  refine takes_readOperand ?_ trailing
  exact single_takes .reference (by decide) (Piece.plain_word named).lexical (Piece.isName_word named)
    (takes_readReference named)

/-- An expression that is read back is so between parentheses. -/
theorem parenthesized {value : Node} (inner : Shaped .expression value)
    (found : ReadBack grammar .expression value) :
    ReadBack grammar .primary (.parenthesized value) := by
  intro limit levels level flags subject middle later condition within deep trailing
  simp only [Node.Within] at within
  obtain ⟨levels, rfl, deeper⟩ := inner.exists_levels rfl within.2 deep
  have closing : (Piece.bracket ")").halts = true := by decide
  have value := found within.2 deeper (Halted.cons closing (middle ++ later))
  refine takes_readOperand ?_ trailing
  exact single_takes .parenthesized (by decide) (by decide) (by decide) (takes_readParenthesized value)

/-- A call is read back if the function and each argument are. -/
theorem call {callee : Node} {args : List Node} (given : ∀ arg ∈ args, Shaped .expression arg)
    (called : ReadBack grammar .primary callee)
    (found : ∀ arg ∈ args, ReadBack grammar .expression arg) :
    ReadBack grammar .primary (.call callee args) := by
  intro limit levels level flags subject middle later condition within deep trailing
  simp only [Node.Within, Node.listWithin_iff] at within
  have split : (Node.call callee args).pieces true ++ middle = callee.pieces true ++
      (.bracket "(" :: (Piece.listed (Node.piecesList args) ++ [.bracket ")"]) ++ middle) := by
    simp [Node.pieces]
  rw [split]
  apply called within.2.1 deep
  refine takes_trailingChain_step (List.cons_ne_nil _ _) ?_ trailing
  apply reader_takes_of_opens .call (by decide) (by decide)
  apply takes_readCall
  · intro arg member
    exact (given arg member).opensExpression rfl
  · intro arg member following halted
    obtain ⟨levels, rfl, deeper⟩ :=
      (given arg member).exists_levels rfl (within.2.2 arg member) deep
    exact found arg member (within.2.2 arg member) deeper halted

/-- A property is read back behind an owner that is. -/
theorem property {value : Node} {name : String} (found : ReadBack grammar .primary value) :
    ReadBack grammar .primary (.property value name) := by
  intro limit levels level flags subject middle later condition within deep trailing
  simp only [Node.Within] at within
  rw [Node.pieces, List.append_assoc]
  apply found within.2 deep
  refine takes_trailingChain_step (List.cons_ne_nil _ _) ?_ trailing
  exact reader_takes_of_opens .property (by decide) (by decide) (takes_readProperty name)

/-- A step is read back behind an operand that is. -/
theorem trailingCrement {op : CrementOp} {value : Node} (target : value.isCrementTarget = true)
    (found : ReadBack grammar .primary value) :
    ReadBack grammar .primary (.crement op true value) := by
  intro limit levels level flags subject middle later condition within deep trailing
  simp only [Node.Within, if_true] at within
  simp only [Node.pieces, if_true, List.append_assoc]
  apply found within.2 deep
  refine takes_trailingChain_step (List.cons_ne_nil _ _) ?_ trailing
  exact reader_takes_of_opens .trailingCrement (by decide) (by cases op <;> decide)
    (takes_readTrailingCrement op target)

end Primary

section Operand

/-- A primary expression is an operand without an operator. -/
theorem ofPrimary {node : Node} (found : ReadBack grammar .primary node) :
    ReadBack grammar .operand node := by
  intro limit levels level flags subject later within deep settled
  rw [← List.append_nil (Node.pieces true _)]
  exact found within deep (takes_trailingChain_stop (trailing_refuses settled _))

/-- A unary expression is read back if its operand is. -/
theorem unary {op : UnaryOp} {value : Node} (inner : Shaped .operand value)
    (found : ReadBack grammar .operand value) : ReadBack grammar .operand (.unary op value) := by
  intro limit levels level flags subject later within deep settled
  simp only [Node.Within] at within
  obtain ⟨levels, rfl, deeper⟩ := inner.exists_levels rfl within.2 deep
  have operand := operand_takes (found within.2 deeper settled)
  rw [Node.pieces, ← List.append_nil (_ :: _)]
  refine takes_readOperand ?_ (takes_trailingChain_stop (trailing_refuses settled _))
  exact single_takes .unary (by decide) op.plain_piece.lexical (by cases op <;> decide)
    (takes_readUnary op operand)

/-- A step is read back before an operand that is. -/
theorem leadingCrement {op : CrementOp} {value : Node} (stepped : Shaped .primary value)
    (target : value.isCrementTarget = true) (found : ReadBack grammar .primary value) :
    ReadBack grammar .operand (.crement op false value) := by
  intro limit levels level flags subject later within deep settled
  simp only [Node.Within, Bool.false_eq_true, if_false] at within
  obtain ⟨levels, rfl, deeper⟩ := stepped.exists_levels rfl within.2 deep
  have operand := operand_takes (ofPrimary found within.2 deeper settled)
  rw [Node.pieces, if_neg Bool.false_ne_true, ← List.append_nil (_ :: _)]
  refine takes_readOperand ?_ (takes_trailingChain_stop (trailing_refuses settled _))
  exact single_takes .leadingCrement (by decide) op.plain_piece.lexical (by cases op <;> decide)
    (takes_readLeadingCrement op target operand)

end Operand

section Expression

/-- An operand is an expression without a chain. -/
theorem ofOperand {node : Node} (found : ReadBack grammar .operand node) :
    ReadBack grammar .expression node := by
  intro limit levels level later within deep halted
  refine expression_takes (by decide) ?_
  have single : Flags.value.contains .operand = false := by decide
  rw [← List.append_nil (node.pieces true)]
  apply takes_readExpression [] [] single halted rfl
  intro other member following settled
  obtain rfl := List.mem_singleton.mp member
  exact found within deep settled

/-- A chain is read back if each of its operands is. -/
theorem binary {ops : List BinaryOp} {operands : List Node} (linked : ops ≠ [])
    (count : operands.length = ops.length + 1)
    (found : ∀ operand ∈ operands, ReadBack grammar .operand operand) :
    ReadBack grammar .expression (.binary ops operands) := by
  intro limit levels level later within deep halted
  simp only [Node.Within, Node.listWithin_iff] at within
  cases operands with
  | nil => simp at count
  | cons first operands =>
    refine expression_takes (by decide) ?_
    have single : Flags.value.contains .operand = false := by decide
    apply (takes_readExpression ops operands single halted (Nat.succ.inj count).symm
      fun operand member following settled =>
        found operand member (within.2 operand member) deep settled).imp
    intro read same
    rw [same, if_neg (by simpa using linked)]

end Expression

end ReadBack

/-- The pieces of every expression are read as it, by induction on its shape. -/
theorem Shaped.readBack [grammar.Arranged] {category : Category} {node : Node}
    (shaped : Shaped category node) :
    ReadBack grammar category node := by
  induction shaped with
  | float written => exact ReadBack.float written
  | int written => exact ReadBack.int written
  | reference named => exact ReadBack.reference named
  | parenthesized inner found => exact ReadBack.parenthesized inner found
  | call _ given called found => exact ReadBack.call given called found
  | property _ _ found => exact ReadBack.property found
  | trailingCrement _ target found => exact ReadBack.trailingCrement target found
  | ofPrimary _ found => exact ReadBack.ofPrimary found
  | unary inner found => exact ReadBack.unary inner found
  | leadingCrement stepped target found => exact ReadBack.leadingCrement stepped target found
  | ofOperand _ found => exact ReadBack.ofOperand found
  | binary linked count _ found => exact ReadBack.binary linked count found
  | _ => trivial

end ShaderSource
