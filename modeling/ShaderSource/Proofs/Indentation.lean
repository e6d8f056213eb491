import ShaderSource.Proofs.RoundTrip
import ShaderSource.Proofs.Text.Margin

/-!
# The layout of printed programs

A printed program is laid out by its blocks. Expressions, and the headers of
functions, branches and loops, stay in their lines. A body is set in as a whole
each time that it stands in another one, so that in the end each line is set in
by the braces that are open before it. At the top no brace is open.
-/

namespace ShaderSource

open LineState Lexeme

section Lines

variable {text other : String}

/-- A text without line feeds and braces. -/
def Inline (text : String) : Prop := text.toList.all isInline = true

/-- A text of one line without braces that begins with a character, and not with a space. -/
def OpensLine (text : String) : Prop := Opens text.toList

instance (text : String) : Decidable (Inline text) := inferInstanceAs (Decidable (_ = true))

instance (text : String) : Decidable (OpensLine text) := inferInstanceAs (Decidable (Opens _))

/-- Two texts within a line are one behind the other. -/
theorem Inline.append (inline : Inline text) (further : Inline other) : Inline (text ++ other) := by
  rw [Inline, String.toList_append, List.all_append, inline, further, Bool.and_self]

/-- A text that opens a line is within it. -/
theorem OpensLine.inline (opens : OpensLine text) : Inline text := Opens.inline opens

/-- A text that opens a line does so with more of the line behind it. -/
theorem OpensLine.append (opens : OpensLine text) (inline : Inline other) :
    OpensLine (text ++ other) := by
  rw [OpensLine, String.toList_append]
  exact Opens.append opens inline

/-- Texts within a line are so with separators between them. -/
theorem Inline.intercalate {separator : String} {items : List String} (between : Inline separator)
    (each : ∀ item ∈ items, Inline item) : Inline (separator.intercalate items) := by
  induction items with
  | nil => rfl
  | cons first others inductionHypothesis =>
    rw [List.forall_mem_cons] at each
    cases others with
    | nil =>
      rw [String.intercalate_singleton]
      exact each.1
    | cons second others =>
      rw [String.intercalate_cons_cons]
      exact (each.1.append between).append (inductionHypothesis each.2)

/-- Texts within a line are so one behind the other. -/
theorem Inline.join {items : List String} (each : ∀ item ∈ items, Inline item) :
    Inline (String.join items) := by
  rw [Inline, String.toList_join, List.all_flatMap, List.all_eq_true]
  exact each

/-- The end of a statement is within its line. -/
theorem inline_statementEnd (closed : Bool) : Inline (statementEnd closed) := by
  cases closed <;> decide

/-- A letter, a digit or a point stays in its line. -/
theorem isInline_of_continues {char : Char}
    (continues : continuesIdentifier char = true ∨ char = '.') :
    isInline char = true ∧ char ≠ ' ' := by
  rcases continues with letter | rfl
  · have ne {sign : Char} (other : continuesIdentifier sign = false) : char ≠ sign := by
      rintro rfl
      exact Bool.noConfusion (letter.symm.trans other)
    simp only [isInline, Bool.and_eq_true, bne_iff_ne]
    exact ⟨⟨⟨ne (by decide), ne (by decide)⟩, ne (by decide)⟩, ne (by decide)⟩
  · decide

/-- A name or a number is a text of one line. -/
theorem opensLine_of_continues (filled : text.toList ≠ [])
    (each : ∀ char ∈ text.toList, continuesIdentifier char = true ∨ char = '.') :
    OpensLine text where
  inline := List.all_eq_true.mpr fun char member => (isInline_of_continues (each char member)).1
  begins := by
    obtain ⟨first, rest, shown⟩ := List.exists_cons_of_ne_nil filled
    have visible : first ≠ ' ' := (isInline_of_continues (each first (by simp [shown]))).2
    simpa [shown] using visible

/-- An identifier opens a line. -/
theorem opensLine_identifier (written : identifierText text.toList = true) : OpensLine text := by
  cases shown : text.toList with
  | nil => exact absurd written (by simp [shown, identifierText])
  | cons first rest =>
    rw [shown, identifierText, Bool.and_eq_true, List.all_eq_true] at written
    have begins : continuesIdentifier first = true := by simp [continuesIdentifier, written.1]
    refine opensLine_of_continues (by simp [shown]) ?_
    rw [shown, List.forall_mem_cons]
    exact ⟨.inl begins, fun char member => .inl (written.2 char member)⟩

/-- A name opens a line. -/
theorem opensLine_name (named : isNameText text = true) : OpensLine text := by
  rw [isNameText, Bool.and_eq_true] at named
  exact opensLine_identifier named.1

/-- An integer opens a line. -/
theorem opensLine_integer (written : integerText text.toList = true) : OpensLine text := by
  simp only [integerText, Bool.and_eq_true, Bool.not_eq_true', List.isEmpty_eq_false_iff,
    List.all_eq_true] at written
  refine opensLine_of_continues written.1 fun char member => .inl ?_
  simp [continuesIdentifier, written.2 char member]

/-- A float number opens a line, also with a point in front. -/
theorem opensLine_float (written : floatText text.toList = true) : OpensLine text := by
  obtain ⟨whole, fraction, form, digits⟩ : ∃ whole fraction,
      text.toList = whole ++ '.' :: fraction ∧ ∀ char ∈ whole ++ fraction, char.isDigit = true := by
    unfold floatText at written
    split at written
    case h_1 fraction behind =>
      rw [integerText, Bool.and_eq_true, List.all_eq_true] at written
      refine ⟨text.toList.takeWhile Char.isDigit, fraction, ?_, fun char member => ?_⟩
      · rw [← behind, List.takeWhile_append_dropWhile]
      · rcases List.mem_append.mp member with whole | fraction
        · exact List.all_eq_true.mp List.all_takeWhile char whole
        · exact written.2 char fraction
    case h_2 => exact absurd written (by simp)
  have digit (char : Char) (member : char ∈ whole ++ fraction) :
      continuesIdentifier char = true := by
    simp [continuesIdentifier, digits char member]
  refine opensLine_of_continues (by simp [form]) fun char member => ?_
  rw [form, List.mem_append, List.mem_cons] at member
  rcases member with member | rfl | member
  · exact .inl (digit char (List.mem_append_left _ member))
  · exact .inr rfl
  · exact .inl (digit char (List.mem_append_right _ member))

end Lines

section Expressions

/-- A unary operator opens a line. -/
theorem UnaryOp.opensLine (op : UnaryOp) : OpensLine op.spelling := by
  cases op <;> decide

/-- The operator of a step opens a line. -/
theorem CrementOp.opensLine (op : CrementOp) : OpensLine op.spelling := by
  cases op <;> decide

/-- A binary operator is within its line. -/
theorem BinaryOp.inline (op : BinaryOp) : Inline op.spelling := by cases op <;> decide

/-- An assignment operator is within its line. -/
theorem AssignOp.inline (op : AssignOp) : Inline op.spelling := by cases op <;> decide

/-- A text within a line is so with a space in front of it. -/
theorem Inline.keepApart {text : String} (inline : Inline text) : Inline (keepApart text) := by
  unfold ShaderSource.keepApart
  split
  · exact Inline.append (by decide) inline
  · exact Inline.append (by decide) inline
  · exact inline

/-- A chain of operators stays in its line if its operands do. -/
theorem opensLine_printChain (ops : List BinaryOp) {operands : List String}
    (filled : operands ≠ []) (each : ∀ operand ∈ operands, OpensLine operand) :
    OpensLine (printChain ops operands) := by
  have links (others : List String) (known : ∀ operand ∈ others, OpensLine operand) :
      Inline (String.join
        (List.zipWith (fun op operand => " " ++ op.spelling ++ " " ++ operand) ops others)) := by
    induction others generalizing ops with
    | nil => cases ops <;> rfl
    | cons operand others inductionHypothesis =>
      rw [List.forall_mem_cons] at known
      cases ops with
      | nil => rfl
      | cons op ops =>
        have space : Inline " " := by decide
        rw [List.zipWith_cons_cons, String.join_cons]
        exact (((space.append op.inline).append space).append known.1.inline).append
          (inductionHypothesis ops known.2)
  cases operands with
  | nil => exact absurd rfl filled
  | cons first others =>
    rw [List.forall_mem_cons] at each
    exact each.1.append (links others each.2)

/-- An expression stays in one line. -/
theorem Shaped.opensLine {category : Category} {node : Node} (shaped : Shaped category node)
    (valued : category.isStatement = false) : OpensLine (node.print true) := by
  induction shaped with
  | float written => exact opensLine_float written
  | int written => exact opensLine_integer written
  | reference named => exact opensLine_name named
  | parenthesized _ inner =>
    have bracket : OpensLine "(" := by decide
    exact (bracket.append (inner rfl).inline).append (by decide)
  | call _ _ called given =>
    refine (((called rfl).append (by decide)).append ?_).append (by decide)
    rw [Node.printList_eq_map]
    refine Inline.intercalate (by decide) (List.forall_mem_map.mpr fun arg member => ?_)
    exact (given arg member rfl).inline
  | property _ named owner =>
    exact ((owner rfl).append (by decide)).append (opensLine_identifier named).inline
  | @trailingCrement op _ _ _ stepped => exact (stepped rfl).append op.opensLine.inline
  | @unary op _ _ inner => exact op.opensLine.append (inner rfl).inline.keepApart
  | @leadingCrement op _ _ _ stepped => exact op.opensLine.append (stepped rfl).inline
  | @binary ops operands _ count _ parts =>
    rw [Node.print, Node.printList_eq_map]
    refine opensLine_printChain ops ?_ (List.forall_mem_map.mpr fun operand member => ?_)
    · intro empty
      rw [List.map_eq_nil_iff.mp empty] at count
      exact absurd count (by simp)
    · exact parts operand member rfl
  | ofPrimary _ found | ofOperand _ found => exact found rfl
  | _ => exact Bool.noConfusion valued

/-- The initial value of a declaration is within its line. -/
theorem Inline.initialText {initial : Option Node}
    (value : ∀ node, initial = some node → Shaped .expression node) :
    Inline (Node.initialText initial) := by
  cases initial with
  | none => decide
  | some node => exact Inline.append (by decide) ((value node rfl).opensLine rfl).inline

/-- A declaration stays in one line. -/
theorem opensLine_declaration (qualifier : Option Qualifier) {ty name : String}
    {initial : Option Node} (typed : isNameText ty = true) (named : isNameText name = true)
    (value : ∀ node, initial = some node → Shaped .expression node) :
    OpensLine (Qualifier.text qualifier ++ (ty ++ " " ++ name ++ Node.initialText initial)) := by
  have declared : OpensLine (ty ++ " " ++ name ++ Node.initialText initial) :=
    (((opensLine_name typed).append (by decide)).append (opensLine_name named).inline).append
      (Inline.initialText value)
  cases qualifier with
  | none => simpa [Qualifier.text] using declared
  | some qualifier =>
    have word : OpensLine (Qualifier.text (some qualifier)) := by cases qualifier <;> decide
    exact word.append declared.inline

/-- A clause stays in one line, with its semicolon and without it. -/
theorem Shaped.exists_clause {category : Category} {node : Node} (shaped : Shaped category node)
    (clause : category = .clause) :
    ∃ text, (∀ closed, node.print closed = text ++ statementEnd closed) ∧
      (OpensLine text ∨ text = "") := by
  induction shaped with
  | @declaration ty name initial typed named value =>
    refine ⟨_, fun closed => ?_, .inl (opensLine_declaration none typed named value)⟩
    rw [Node.print_declaration]
    simp only [String.append_assoc]
  | @assignment name op value named assigned =>
    have space : Inline " " := by decide
    refine ⟨name ++ " " ++ op.spelling ++ " " ++ value.print true, fun closed => rfl, .inl ?_⟩
    exact ((((opensLine_name named).append space).append op.inline).append space).append
      (assigned.opensLine rfl).inline
  | @propertyAssignment target op value owner _ assigned =>
    have space : Inline " " := by decide
    refine ⟨target.print true ++ " " ++ op.spelling ++ " " ++ value.print true, fun closed => rfl,
      .inl ?_⟩
    exact ((((owner.opensLine rfl).append space).append op.inline).append space).append
      (assigned.opensLine rfl).inline
  | @expression value inner =>
    exact ⟨value.print true, fun closed => rfl, .inl (inner.opensLine rfl)⟩
  | empty => exact ⟨"", fun closed => (String.empty_append).symm, .inr rfl⟩
  | _ => exact absurd clause (by simp)

end Expressions

section Blocks

variable {text other : String}

/-- The lines of a text are set in rightly, and no brace is open before them and behind them. -/
def LaidOut (text : String) : Prop :=
  ∃ last, closesLine last = true ∧ (margin 0 0).run? text.toList = some (inside 0 last)

/-- A text goes on with a line where no brace is open, up to a closing brace. -/
def Block (text : String) : Prop :=
  ∀ last, (inside 0 last).run? text.toList = some (inside 0 '\x7d')

/-- Two blocks are one behind the other. -/
theorem Block.append (block : Block text) (further : Block other) : Block (text ++ other) := by
  intro last
  rw [String.toList_append]
  exact run?_trans (block last) (further _)

/-- What is within a line may stand in front of a block that goes on with it. -/
theorem Inline.block (inline : Inline text) (block : Block other) : Block (text ++ other) := by
  intro last
  obtain ⟨last', read⟩ := run?_inside inline 0 last
  rw [String.toList_append]
  exact run?_trans read (block last')

/-- A header in front of a block. -/
theorem OpensLine.block (opens : OpensLine text) (block : Block other) :
    LaidOut (text ++ other) := by
  obtain ⟨last, read⟩ := Opens.run? opens
  refine ⟨'\x7d', rfl, ?_⟩
  rw [String.toList_append]
  exact run?_trans read (block last)

/-- A line that is ended. -/
theorem OpensLine.semicolon (opens : OpensLine text) : LaidOut (text ++ ";") := by
  obtain ⟨last, read⟩ := Opens.run? opens
  refine ⟨';', rfl, ?_⟩
  rw [String.toList_append]
  exact run?_trans read rfl

/-- Texts below each other are laid out if each of them is. -/
theorem LaidOut.lines {items : List String} (filled : items ≠ [])
    (each : ∀ item ∈ items, LaidOut item) : LaidOut ("\n".intercalate items) := by
  induction items with
  | nil => exact absurd rfl filled
  | cons first others inductionHypothesis =>
    rw [List.forall_mem_cons] at each
    cases others with
    | nil =>
      rw [String.intercalate_singleton]
      exact each.1
    | cons second others =>
      obtain ⟨last, closes, read⟩ := each.1
      obtain ⟨last', closes', below⟩ := inductionHypothesis (List.cons_ne_nil _ _) each.2
      have feed : (inside 0 last).run? "\n".toList = some (margin 0 0) := by
        have ended : (inside 0 last).step? '\n' = some (margin 0 0) := by
          rw [step?, if_pos rfl, if_pos closes]
        exact congrArg (Option.bind · _) ended
      refine ⟨last', closes', ?_⟩
      rw [String.intercalate_cons_cons, String.toList_append, String.toList_append]
      exact run?_trans (run?_trans read feed) below

/-- A body in braces is a block if its statements are laid out. -/
theorem block_bracedBody {nodes : List Node} (shaped : ∀ node ∈ nodes, Shaped .statement node)
    (each : ∀ node ∈ nodes, LaidOut (node.print true)) :
    Block (bracedBody (Node.printList nodes)) := by
  rw [Node.printList_eq_map]
  cases nodes with
  | nil => exact fun last => rfl
  | cons first others =>
    have typeset : Typeset ("\n".intercalate ((first :: others).map Node.render)).toList _ :=
      .lines fun node member => (shaped node member).printable true
    have ends : EndsLine ("\n".intercalate ((first :: others).map Node.render)) :=
      endsLine_lines (List.cons_ne_nil _ _)
        (List.forall_mem_map.mpr fun node member => (shaped node member).endsLine rfl)
    obtain ⟨inner, closes, read⟩ : LaidOut ("\n".intercalate ((first :: others).map Node.render)) :=
      .lines (List.cons_ne_nil _ _) (List.forall_mem_map.mpr each)
    have printed : bracedBody ((first :: others).map Node.render) =
        "\x7b\n" ++ Text.indent ("\n".intercalate ((first :: others).map Node.render)) ++ "\n\x7d" :=
      rfl
    intro last
    have opening : (inside 0 last).run? "\x7b\n".toList = some (margin 1 0) := rfl
    have first : (margin 1 0).run? Text.indentation.toList = some (raise (margin 0 0)) := rfl
    have closing : (raise (inside 0 inner)).run? "\n\x7d".toList = some (inside 0 '\x7d') := by
      have ended : (inside 1 inner).step? '\n' = some (margin 1 0) := by
        rw [step?, if_pos rfl, if_pos closes]
      exact congrArg (Option.bind · (·.run? ['\x7d'])) ended
    rw [printed, String.toList_append, String.toList_append,
      Text.toList_indent ends.1 typeset.no_return ends.2]
    exact run?_trans (run?_trans opening (run?_trans first (run?_spread read))) closing

/-- The branches behind a block. -/
theorem Block.branches {branches : List Branch}
    (guards : ∀ branch ∈ branches, Shaped .expression branch.condition)
    (each : ∀ branch ∈ branches, Block (bracedBody (Node.printList branch.body)))
    (block : Block text) : Block (text ++ Branch.printList branches) := by
  induction branches generalizing text with
  | nil => simpa [Branch.printList] using block
  | cons branch branches inductionHypothesis =>
    rw [List.forall_mem_cons] at guards each
    obtain ⟨condition, body⟩ := branch
    have header : Inline (" else if (" ++ condition.print true ++ ") ") :=
      (Inline.append (by decide) (guards.1.opensLine rfl).inline).append (by decide)
    have further : Block (text ++ (Branch.mk condition body).print) :=
      block.append (header.block each.1)
    rw [Branch.printList, ← String.append_assoc]
    exact inductionHypothesis guards.2 each.2 further

/-- The last branch behind a block. -/
theorem Block.elseText {elseBody : Option (List Node)}
    (last : ∀ nodes, elseBody = some nodes → Block (bracedBody (Node.printList nodes)))
    (block : Block text) : Block (text ++ Node.elseText elseBody) := by
  cases elseBody with
  | none => simpa [Node.elseText] using block
  | some nodes =>
    have header : Inline " else " := by decide
    exact block.append (header.block (last nodes rfl))

end Blocks

/-- The text of a clause with its semicolon. -/
theorem Shaped.laidOut_clause {node : Node} (shaped : Shaped .clause node) :
    LaidOut (node.print true) := by
  obtain ⟨text, printed, opens | rfl⟩ := shaped.exists_clause rfl
  · rw [printed]
    exact opens.semicolon
  · rw [printed]
    exact ⟨';', rfl, rfl⟩

/-- A clause of a loop is printed within one line. -/
theorem Shaped.inline_clause {node : Node} (shaped : Shaped .clause node) :
    Inline (node.print false) := by
  obtain ⟨text, printed, opens | rfl⟩ := shaped.exists_clause rfl
  · rw [printed]
    exact opens.inline.append (inline_statementEnd false)
  · rw [printed]
    decide

/-- The text of a statement is laid out. The induction is on the shape of the statement, in which
    the statements of its bodies are laid out. -/
theorem Shaped.laidOut {category : Category} {node : Node} (shaped : Shaped category node)
    (stated : category.isStatement = true) : LaidOut (node.print true) := by
  induction shaped with
  | declaration typed named value => exact laidOut_clause (.declaration typed named value)
  | assignment named assigned => exact laidOut_clause (.assignment named assigned)
  | propertyAssignment owner property assigned =>
    exact laidOut_clause (.propertyAssignment owner property assigned)
  | expression inner => exact laidOut_clause (.expression inner)
  | empty => exact laidOut_clause .empty
  | ofClause _ found | ofStatement _ found => exact found rfl
  | conditional guard shaped guards branches last _ body _ bodies lastBody =>
    have opening : OpensLine "if (" := by decide
    have first := block_bracedBody shaped fun node member => body node member rfl
    rw [Node.print_conditional]
    refine ((opening.append (guard.opensLine rfl).inline).append (by decide)).block ?_
    rw [← String.append_assoc]
    refine (first.branches guards fun branch member => ?_).elseText fun nodes same => ?_
    · exact block_bracedBody (branches branch member) fun node inside =>
        bodies branch member node inside rfl
    · exact block_bracedBody (last nodes same) fun node inside => lastBody nodes same node inside rfl
  | loop first second third shaped _ _ _ body =>
    have opening : OpensLine "for (" := by decide
    have between : Inline "; " := by decide
    have clauses := ((((opening.append first.inline_clause).append between).append
      second.inline_clause).append between).append third.inline_clause
    exact (clauses.append (by decide)).block
      (block_bracedBody shaped fun node member => body node member rfl)
  | @returning result value =>
    cases result with
    | none => exact ⟨';', rfl, rfl⟩
    | some node =>
      have word : OpensLine "return " := by decide
      exact (word.append ((value node rfl).opensLine rfl).inline).semicolon
  | breaking => exact ⟨';', rfl, rfl⟩
  | precision graded typed =>
    have word : OpensLine "precision " := by decide
    exact (((word.append (opensLine_name graded).inline).append (by decide)).append
      (opensLine_name typed).inline).semicolon
  | qualified typed named value =>
    rw [Node.print_declaration, ← String.append_assoc]
    exact (opensLine_declaration _ typed named value).semicolon
  | function typed named declared shaped body =>
    have params := Inline.intercalate (by decide : Inline ", ")
      (List.forall_mem_map.mpr fun param member =>
        (((opensLine_name (declared param member).1).append (by decide : Inline " ")).append
          (opensLine_name (declared param member).2).inline).inline)
    have name := ((opensLine_name typed).append (by decide : Inline " ")).append
      (opensLine_name named).inline
    have closing : Inline ") " := by decide
    exact (((name.append (by decide : Inline "(")).append params).append closing).block
      (block_bracedBody shaped fun node member => body node member rfl)
  | _ => exact Bool.noConfusion stated

namespace ShapedProgram

variable {nodes front back : List Node}

/-- The nodes in front of others are a program. -/
theorem earlier (shaped : ShapedProgram (front ++ back)) : ShapedProgram front :=
  fun node member => shaped node (List.mem_append_left back member)

/-- Each node is a program. -/
theorem single {node : Node} (shaped : ShapedProgram (front ++ node :: back)) :
    ShapedProgram [node] := by
  simpa [ShapedProgram] using shaped node (by simp)

/-- A program that is not empty is laid out. -/
theorem laidOut (shaped : ShapedProgram nodes) (filled : nodes ≠ []) :
    LaidOut (renderProgram nodes) :=
  .lines (by simpa using filled)
    (List.forall_mem_map.mpr fun node member => (shaped node member).laidOut rfl)

/-- The last line of a program has no line feed behind it. -/
theorem endsLine (shaped : ShapedProgram nodes) (filled : nodes ≠ []) :
    EndsLine (renderProgram nodes) :=
  endsLine_lines (by simpa using filled)
    (List.forall_mem_map.mpr fun node member => (shaped node member).endsLine rfl)

/-- Each line of a printed program is set in by the braces that are open before it, and in the end
    no brace is open. -/
theorem lines_setIn (shaped : ShapedProgram nodes) :
    openBraces (Text.lines (renderProgram nodes).toList).flatten = 0 ∧
      ∀ before line after, Text.lines (renderProgram nodes).toList = before ++ line :: after →
        SetIn (openBraces before.flatten) line := by
  by_cases filled : nodes = []
  case pos =>
    subst filled
    exact ⟨rfl, fun before line after parts => absurd parts (by simp [renderProgram, Text.lines])⟩
  case neg =>
    obtain ⟨last, closes, read⟩ := shaped.laidOut filled
    obtain ⟨total, each⟩ := LineState.lines_setIn shaped.typeset.no_return closes read
    exact ⟨by omega, fun before line after parts => by simpa using each before line after parts⟩

/-- The lines of a program are those of its parts. -/
theorem lines_append (shaped : ShapedProgram front) (back : List Node) :
    Text.lines (renderProgram (front ++ back)).toList =
      Text.lines (renderProgram front).toList ++ Text.lines (renderProgram back).toList := by
  by_cases before : front = []
  case pos =>
    subst before
    rfl
  case neg =>
    by_cases behind : back = []
    case pos =>
      subst behind
      rw [List.append_nil]
      exact (List.append_nil _).symm
    case neg =>
      have ends := shaped.endsLine before
      have joined : renderProgram (front ++ back) =
          renderProgram front ++ "\n" ++ renderProgram back := by
        rw [renderProgram, List.map_append]
        exact String.intercalate_append_of_ne_nil (by simpa using before) (by simpa using behind)
      rw [joined, String.toList_append, String.toList_append, List.append_assoc]
      exact Text.lines_append ends.1 shaped.typeset.no_return ends.2 _

/-- The lines of a program around one of its nodes. -/
theorem lines_split {node : Node} (shaped : ShapedProgram (front ++ node :: back)) :
    Text.lines (renderProgram (front ++ node :: back)).toList =
      Text.lines (renderProgram front).toList ++ Text.lines node.render.toList ++
        Text.lines (renderProgram back).toList := by
  have printed : renderProgram [node] = node.render := String.intercalate_singleton
  rw [shaped.earlier.lines_append, ← List.singleton_append, shaped.single.lines_append, printed,
    List.append_assoc]

/-- The first line of a program has no margin, and it does not begin with a closing brace. -/
theorem exists_firstLine (shaped : ShapedProgram nodes) (filled : nodes ≠ []) :
    ∃ first rest others, Text.lines (renderProgram nodes).toList = (first :: rest) :: others ∧
      first ≠ ' ' ∧ first ≠ '\x7d' := by
  obtain ⟨some, noFeed⟩ := shaped.endsLine filled
  obtain ⟨line, others, shown, _⟩ := Text.lines_spread some shaped.typeset.no_return noFeed
  obtain ⟨steps, first, rest, form, visible, width⟩ :=
    (shaped.lines_setIn.2 [] line others shown).form
  have braces : openBraces [].flatten = 0 := rfl
  have noClosing : first ≠ '\x7d' := by
    intro closing
    rw [braces, if_pos closing] at width
    omega
  rw [braces, if_neg noClosing] at width
  obtain rfl : steps = 0 := by omega
  obtain rfl : line = first :: rest := form
  exact ⟨first, rest, others, shown, visible, noClosing⟩

end ShapedProgram

/-- A compiled program is printed with its lines set in: none is blank, each ends with a semicolon
    or a brace, and each is set in by four spaces for each brace that is open before it, with a
    closing brace at its front for one less. Each node of the top begins on a line of its own where
    no brace is open, and not with a space. -/
theorem compile_setIn {source : String} {nodes : List Node} (compiled : compile source = .ok nodes) :
    (∀ before line after, Text.lines (renderProgram nodes).toList = before ++ line :: after →
      SetIn (openBraces before.flatten) line) ∧
    ∀ front node back, nodes = front ++ node :: back →
      ∃ before first rest others behind,
        Text.lines (renderProgram nodes).toList = before ++ ((first :: rest) :: others) ++ behind ∧
        Text.lines (renderProgram front).toList = before ∧
        Text.lines node.render.toList = (first :: rest) :: others ∧
        openBraces before.flatten = 0 ∧ first ≠ ' ' ∧ first ≠ '\x7d' := by
  obtain ⟨_, _, _, shaped, _⟩ := exists_of_compile compiled
  refine ⟨shaped.lines_setIn.2, ?_⟩
  rintro front node back rfl
  have printed : renderProgram [node] = node.render := String.intercalate_singleton
  obtain ⟨first, rest, others, shown, visible, noClosing⟩ :=
    (ShapedProgram.single shaped).exists_firstLine (List.cons_ne_nil _ _)
  rw [printed] at shown
  have parts := ShapedProgram.lines_split shaped
  have closed := (ShapedProgram.earlier shaped).lines_setIn.1
  rw [shown] at parts
  exact ⟨_, first, rest, others, _, parts, rfl, shown, closed, visible, noClosing⟩

/-- The line between two bodies of a branch closes one brace and opens another one. -/
theorem compile_setIn_branches :
    ∃ nodes, compile "void f()\x7bif(a)\x7bb=1;\x7delse\x7b\x7d\x7d" = .ok nodes ∧
      Text.lines (renderProgram nodes).toList =
        ["void f() \x7b".toList, "    if (a) \x7b".toList, "        b = 1;".toList] ++
          "    \x7d else \x7b\x7d".toList :: ["\x7d".toList] ∧
      SetIn 2 "    \x7d else \x7b\x7d".toList := by
  let nodes : List Node :=
    [.function "void" "f" [] [.conditional (.reference "a") [.assignment "b" .assign (.int "1")] []
      (some [])]]
  have compiled : compile "void f()\x7bif(a)\x7bb=1;\x7delse\x7b\x7d\x7d" = .ok nodes := by
    decide +kernel
  have printed : Text.lines (renderProgram nodes).toList =
      ["void f() \x7b".toList, "    if (a) \x7b".toList, "        b = 1;".toList] ++
        "    \x7d else \x7b\x7d".toList :: ["\x7d".toList] := by
    decide +kernel
  exact ⟨nodes, compiled, printed, (compile_setIn compiled).1 _ _ _ printed⟩

end ShaderSource
