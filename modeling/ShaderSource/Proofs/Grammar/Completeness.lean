import Mathlib.Order.Filter.AtTopBot.Basic
import ShaderSource.Proofs.Grammar.StatementCompleteness

/-!
# Every program is read back

The pieces of a statement are read as this statement by the first rule that does
not reject them, and so are the pieces of a whole program. The rules tried
before it reject them for their first piece, or for the second one where the
first is a name.

A program that is nested more deeply than the limit allows is not read as
anything else: what is read with fewer levels is read alike with more.
-/

namespace ShaderSource

open Grammar Production Attempt

variable {grammar : Grammar}

/-- The categories as which the statements of a category are read. -/
def Category.readAs : Category → List Category
  | clause => [clause, statement, top]
  | statement => [statement, top]
  | top => [top]
  | _ => []

namespace Category

variable {category other : Category}

/-- What a category is read as is a category of statements. -/
theorem isStatement_of_readAs (member : other ∈ category.readAs) : other.isStatement = true := by
  revert other
  cases category <;> decide

end Category

/-- What can follow a statement at the outermost level can follow one in a body. -/
theorem Follows.statement {category : Category} {later : List Piece}
    (member : category ∈ Category.statement.readAs) (follows : Follows category later) :
    Follows .statement later := by
  rcases List.mem_pair.mp member with rfl | rfl <;> exact follows

/-- A node is read as a category from its pieces, on every level on which it is nested within
    the limit and a list of statements can stand. -/
def ReadBackAs (grammar : Grammar) (category : Category) (node : Node) : Prop :=
  ∀ {limit levels level : Nat} {later : List Piece}, node.Within limit level →
    levels + (level + 1) = limit → Follows category later →
      (grammar.reader (levels + 3)).Takes category.flags none (node.pieces category.closed) later node

/-- The expressions of a statement are read, one level further in. -/
theorem Shaped.value_takes [grammar.Arranged] {value : Node} (shaped : Shaped .expression value)
    {limit levels level : Nat} (within : value.Within limit (level + 1))
    (deep : levels + (level + 1) = limit) {later : List Piece} (halted : Halted later) :
    (grammar.reader (levels + 2)).Takes .value none (value.pieces true) later value :=
  shaped.readBack within deep halted

/-- A name is read as a reference in front of what ends an expression. -/
theorem reference_takes [grammar.Arranged] {name : String} (named : isNameText name = true)
    {levels : Nat} {later : List Piece} (halted : Halted later) :
    (grammar.reader (levels + 2)).Takes .value none [.word name] later (.reference name) := by
  have shaped : Shaped .expression (.reference name) := .ofOperand (.ofPrimary (.reference named))
  have within : (Node.reference name).Within levels 0 := by simp [Node.Within]
  exact shaped.readBack within rfl halted

/-- An optional expression of a statement is read, if there is one. -/
theorem Shaped.option_takes [grammar.Arranged] {initial : Option Node}
    (shaped : ∀ value, initial = some value → Shaped .expression value)
    {limit levels level : Nat} (within : Node.OptionWithin limit (level + 1) initial)
    (deep : levels + (level + 1) = limit) {value : Node} (given : initial = some value)
    {later : List Piece} (halted : Halted later) :
    (grammar.reader (levels + 2)).Takes .value none (value.pieces true) later value := by
  subst given
  exact (shaped value rfl).value_takes within deep halted

/-- The statements of a body are read, if each of them can be. -/
theorem takes_statements [grammar.Arranged] {statements : List Node}
    (shaped : ∀ node ∈ statements, Shaped .statement node)
    (each : ∀ node ∈ statements, ReadBackAs grammar .statement node) {limit levels level : Nat}
    (within : level + 1 < limit ∧ Node.ListWithin limit (level + 1) statements)
    (deep : levels + (level + 1) = limit) {flags : Flags} {subject : Option Node}
    {later : List Piece} :
    body.Takes (grammar.setting (levels + 2) flags subject) (Piece.braced (Node.piecesList statements))
      later fun read => read = statements := by
  obtain ⟨room, inner⟩ := within
  rw [Node.listWithin_iff] at inner
  cases levels with
  | zero => omega
  | succ levels =>
    exact takes_body shaped fun node member following follows =>
      each node member (inner node member) (show levels + (level + 1 + 1) = limit by omega) follows

namespace ReadBackAs

variable [grammar.Arranged] {category : Category}

/-- A declaration without a qualifier is read back as a clause and wherever a clause is one. -/
theorem declaration {ty name : String} {initial : Option Node}
    (member : category ∈ Category.clause.readAs) (typed : isNameText ty = true)
    (named : isNameText name = true)
    (value : ∀ node, initial = some node → Shaped .expression node) :
    ReadBackAs grammar category (.declaration none ty name initial) := by
  intro limit levels level later within deep follows
  simp only [Node.pieces, Qualifier.pieces, List.nil_append, List.cons_append]
  have eligible : ∀ other ∈ Category.clause.readAs,
      Production.declaration.flags.intersects other.flags = true := by decide
  have stated := Category.isStatement_of_readAs member
  refine statement_takes_of_name .declaration stated (eligible category member) typed
    (fun other begins precedes => ?_) (takes_readDeclaration stated typed named follows
      fun node given following halted => Shaped.option_takes value within deep given halted)
  simp only [List.mem_cons, List.not_mem_nil, or_false] at begins
  rcases begins with rfl | rfl | rfl | rfl | rfl
  · exact absurd precedes (by decide)
  · rw [List.cons_append, List.append_assoc]
    exact rejects_readFunction_declaration typed named (follows.ends stated)
  · exact rejects_readAssignment_of_names typed
  · exact rejects_readPropertyAssignment_of_name
      (reference_takes typed (Halted.cons (Piece.halts_word named) _))
  · exact absurd precedes (by decide)

/-- An assignment is read back as a clause and wherever a clause is one. -/
theorem assignment {name : String} {op : AssignOp} {value : Node}
    (member : category ∈ Category.clause.readAs) (named : isNameText name = true)
    (assigned : Shaped .expression value) :
    ReadBackAs grammar category (.assignment name op value) := by
  intro limit levels level later within deep follows
  simp only [Node.pieces, List.cons_append]
  have eligible : ∀ other ∈ Category.clause.readAs,
      Production.assignment.flags.intersects other.flags = true := by decide
  have stated := Category.isStatement_of_readAs member
  have assigns : op.piece.isName = false := by cases op <;> decide
  refine statement_takes_of_name .assignment stated (eligible category member) named
    (fun other begins precedes => ?_) (takes_readAssignment stated named follows
      fun following halted => assigned.value_takes within deep halted)
  simp only [List.mem_cons, List.not_mem_nil, or_false] at begins
  rcases begins with rfl | rfl | rfl | rfl | rfl
  · exact rejects_readDeclaration_of_name named (rejects_lone_name named assigns)
  · exact rejects_lone_name named assigns _
  · exact absurd precedes (by decide)
  · have halts : op.piece.halts = true := by cases op <;> decide
    exact rejects_readPropertyAssignment_of_name (reference_takes named (Halted.cons halts _))
  · exact absurd precedes (by decide)

/-- An assignment to a property is read back, and not as one to a name. -/
theorem propertyAssignment {target : Node} {op : AssignOp} {value : Node}
    (member : category ∈ Category.clause.readAs) (owner : Shaped .primary target)
    (property : target.isProperty = true) (assigned : Shaped .expression value) :
    ReadBackAs grammar category (.propertyAssignment target op value) := by
  intro limit levels level later within deep follows
  simp only [Node.pieces, List.append_assoc, List.cons_append]
  have eligible : ∀ other ∈ Category.clause.readAs,
      Production.propertyAssignment.flags.intersects other.flags = true := by decide
  have stated := Category.isStatement_of_readAs member
  refine statement_takes .propertyAssignment stated (eligible category member)
    (fun other known precedes => ?_) (takes_readPropertyAssignment stated property follows
      (fun following halted => (Shaped.ofOperand (.ofPrimary owner)).value_takes within.1 deep halted)
      fun following halted => assigned.value_takes within.2 deep halted)
  have opens := owner.opens_property property
    ((op.piece :: (value.pieces true ++ Piece.statementEnd category.closed)) ++ later)
  rw [List.append_assoc]
  apply opens.rejects known
  · rintro rfl
    exact absurd precedes (by decide)
  · rintro rfl
    exact absurd precedes (by decide)

/-- An expression statement is read back: no assignment operator is behind its expression. -/
theorem expression {value : Node} (member : category ∈ Category.clause.readAs)
    (inner : Shaped .expression value) : ReadBackAs grammar category (.expression value) := by
  intro limit levels level later within deep follows
  rw [Node.pieces]
  have eligible : ∀ other ∈ Category.clause.readAs,
      Production.expressionStatement.flags.intersects other.flags = true := by decide
  have stated := Category.isStatement_of_readAs member
  have takes : ∀ following, Halted following →
      (grammar.reader (levels + 2)).Takes .value none (value.pieces true) following value :=
    fun following halted => inner.value_takes within deep halted
  refine statement_takes .expressionStatement stated (eligible category member)
    (fun other known precedes => ?_) (takes_readExpressionStatement stated follows takes)
  rw [List.append_assoc]
  by_cases assigns : other = .propertyAssignment
  · subst assigns
    exact rejects_readPropertyAssignment stated follows takes
  · obtain ⟨piece, rest, shown, ends⟩ := follows.ends stated
    have opens : OpensExpression
        (value.pieces true ++ (Piece.statementEnd category.closed ++ later)) := by
      rw [shown]
      apply (inner.opensExpression rfl).append
      intro second next
      obtain rfl := Option.some.inj next
      exact ends.continuesValue
    apply opens.rejects known assigns
    rintro rfl
    exact absurd precedes (by decide)

/-- The empty statement is read back, also where a clause of a loop is left out. -/
theorem empty (member : category ∈ Category.clause.readAs) :
    ReadBackAs grammar category .empty := by
  intro limit levels level later within deep follows
  have eligible : ∀ other ∈ Category.clause.readAs,
      Production.emptyStatement.flags.intersects other.flags = true := by decide
  have stated := Category.isStatement_of_readAs member
  refine statement_takes .emptyStatement stated (eligible category member)
    (fun other known precedes => ?_) (takes_readEmptyStatement stated follows)
  obtain ⟨piece, rest, shown, ends⟩ := follows.ends stated
  have others : ∀ closing ∈ [Piece.semicolon, .bracket ")"], ∀ other ∈ Production.eligible .root,
      other.mayPrecede .emptyStatement = true → other.opens closing = false := by decide
  rw [Node.pieces, shown]
  exact rejects_first (others piece (List.mem_pair.mpr ends) other known precedes)

section Statements

variable (member : category ∈ Category.statement.readAs)

include member

omit [grammar.Arranged] in
/-- The category of a statement that is read is one of statements. -/
theorem isStatement : category.isStatement = true := Category.isStatement_of_readAs member

/-- A conditional is read back if its bodies are, with all its branches. -/
theorem conditional {condition : Node} {statements : List Node} {elseIfs : List Branch}
    {elseBody : Option (List Node)} (guard : Shaped .expression condition)
    (guarded : ∀ node ∈ statements, Shaped .statement node)
    (guards : ∀ branch ∈ elseIfs, Shaped .expression branch.condition)
    (branches : ∀ branch ∈ elseIfs, ∀ node ∈ branch.body, Shaped .statement node)
    (last : ∀ nodes, elseBody = some nodes → ∀ node ∈ nodes, Shaped .statement node)
    (found : ∀ node ∈ statements, ReadBackAs grammar .statement node)
    (branchesFound : ∀ branch ∈ elseIfs, ∀ node ∈ branch.body, ReadBackAs grammar .statement node)
    (lastFound : ∀ nodes, elseBody = some nodes → ∀ node ∈ nodes, ReadBackAs grammar .statement node) :
    ReadBackAs grammar category (.conditional condition statements elseIfs elseBody) := by
  intro limit levels level later within deep follows
  simp only [Node.Within, Branch.listWithin_iff] at within
  obtain ⟨guardWithin, bodyWithin, branchesWithin, lastWithin⟩ := within
  simp only [Node.pieces, List.append_assoc, List.cons_append]
  have eligible : ∀ other ∈ Category.statement.readAs,
      Production.conditional.flags.intersects other.flags = true := by decide
  refine statement_takes_of_first .conditional (isStatement member)
    (eligible category member) (by decide)
    (takes_readConditional (follows.statement member) (fun following => ?_)
      (fun branch inside following => ?_) fun nodes given following => ?_)
  · exact takes_guarded (fun following halted => guard.value_takes guardWithin deep halted)
      (takes_statements guarded found bodyWithin deep)
  · have branchWithin := branchesWithin branch inside
    cases branch with
    | mk test nodes =>
      exact takes_guarded
        (fun following halted => (guards _ inside).value_takes branchWithin.1 deep halted)
        (takes_statements (branches _ inside) (branchesFound _ inside) branchWithin.2 deep)
  · subst given
    exact takes_statements (last nodes rfl) (lastFound nodes rfl) lastWithin deep

/-- A loop is read back if its clauses and its body are. -/
theorem loop {init check increment : Node} {statements : List Node}
    (repeated : ∀ node ∈ statements, Shaped .statement node)
    (first : ReadBackAs grammar .clause init) (second : ReadBackAs grammar .clause check)
    (third : ReadBackAs grammar .clause increment)
    (found : ∀ node ∈ statements, ReadBackAs grammar .statement node) :
    ReadBackAs grammar category (.loop init check increment statements) := by
  intro limit levels level later within deep follows
  simp only [Node.Within] at within
  obtain ⟨initWithin, checkWithin, incrementWithin, bodyWithin⟩ := within
  simp only [Node.pieces, List.append_assoc, List.cons_append]
  have eligible : ∀ other ∈ Category.statement.readAs,
      Production.loop.flags.intersects other.flags = true := by decide
  cases levels with
  | zero => omega
  | succ levels =>
    have deeper : levels + (level + 1 + 1) = limit := by omega
    exact statement_takes_of_first .loop (isStatement member)
      (eligible category member) (by decide)
      (takes_readLoop (fun following ends => first initWithin deeper ends)
        (fun following ends => second checkWithin deeper ends)
        (fun following ends => third incrementWithin deeper ends)
        (takes_statements repeated found bodyWithin deep))

/-- A return statement is read back, with its value or without one. -/
theorem returning {result : Option Node}
    (value : ∀ node, result = some node → Shaped .expression node) :
    ReadBackAs grammar category (.returning result) := by
  intro limit levels level later within deep follows
  simp only [Node.pieces, List.cons_append]
  have eligible : ∀ other ∈ Category.statement.readAs,
      Production.returning.flags.intersects other.flags = true := by decide
  exact statement_takes_of_first .returning (isStatement member)
    (eligible category member) (by decide)
    (takes_readReturn (fun node given => (value node given).opensExpression rfl)
      fun node given following halted => Shaped.option_takes value within deep given halted)

/-- A break statement is read back. -/
theorem breaking : ReadBackAs grammar category .breaking := by
  intro limit levels level later within deep follows
  have eligible : ∀ other ∈ Category.statement.readAs,
      Production.breaking.flags.intersects other.flags = true := by decide
  exact statement_takes_of_first .breaking (isStatement member)
    (eligible category member) (by decide) takes_readBreak

end Statements

section Top

/-- A precision statement is read back at the outermost level. -/
theorem precision {grade ty : String} (graded : isNameText grade = true)
    (typed : isNameText ty = true) : ReadBackAs grammar .top (.precision grade ty) := by
  intro limit levels level later within deep follows
  exact statement_takes_of_first .precision rfl (by decide) (by decide)
    (takes_readPrecision graded typed)

/-- A declaration with a qualifier is read back at the outermost level. -/
theorem qualified {qualifier : Qualifier} {ty name : String} {initial : Option Node}
    (typed : isNameText ty = true) (named : isNameText name = true)
    (value : ∀ node, initial = some node → Shaped .expression node) :
    ReadBackAs grammar .top (.declaration (some qualifier) ty name initial) := by
  intro limit levels level later within deep follows
  simp only [Node.pieces, Qualifier.pieces, List.cons_append, List.nil_append]
  have others : ∀ other ∈ Production.eligible .root, other.mayPrecede .declaration = true →
      other.opens qualifier.piece = false := by cases qualifier <;> decide
  exact statement_takes_of_first .declaration rfl (by decide) others
    (takes_readDeclaration_qualified qualifier typed named
      fun node given following halted => Shaped.option_takes value within deep given halted)

/-- A function is read back at the outermost level if its body is. -/
theorem function {returnType name : String} {params : List Param} {statements : List Node}
    (typed : isNameText returnType = true) (named : isNameText name = true)
    (declared : ∀ param ∈ params, isNameText param.ty = true ∧ isNameText param.name = true)
    (performed : ∀ node ∈ statements, Shaped .statement node)
    (found : ∀ node ∈ statements, ReadBackAs grammar .statement node) :
    ReadBackAs grammar .top (.function returnType name params statements) := by
  intro limit levels level later within deep follows
  simp only [Node.Within] at within
  simp only [Node.pieces, List.cons_append]
  refine statement_takes_of_name .function rfl (by decide) typed (fun other begins precedes => ?_)
    (takes_readFunction typed named declared (takes_statements performed found within deep))
  simp only [List.mem_cons, List.not_mem_nil, or_false] at begins
  rcases begins with rfl | rfl | rfl | rfl | rfl
  · exact rejects_readDeclaration_function typed named (by decide)
  · exact absurd precedes (by decide)
  · exact rejects_readAssignment_of_names typed
  · exact rejects_readPropertyAssignment_of_name
      (reference_takes typed (Halted.cons (Piece.halts_word named) _))
  · exact rejects_readExpressionStatement_of_names (by decide) named
      (reference_takes typed (Halted.cons (Piece.halts_word named) _))

end Top

end ReadBackAs

/-- Every statement is read back from its pieces, by induction on its shape. -/
theorem Shaped.readBackAs [grammar.Arranged] {category other : Category} {node : Node}
    (shaped : Shaped category node)
    (member : other ∈ category.readAs) : ReadBackAs grammar other node := by
  induction shaped generalizing other with
  | declaration typed named value => exact ReadBackAs.declaration member typed named value
  | assignment named assigned => exact ReadBackAs.assignment member named assigned
  | propertyAssignment owner property assigned =>
    exact ReadBackAs.propertyAssignment member owner property assigned
  | expression inner => exact ReadBackAs.expression member inner
  | empty => exact ReadBackAs.empty member
  | ofClause _ found => exact found (List.mem_cons_of_mem _ member)
  | conditional guard guarded guards branches last _ found _ branchesFound lastFound =>
    exact ReadBackAs.conditional member guard guarded guards branches last
      (fun node inside => found node inside (by decide))
      (fun branch inside node within => branchesFound branch inside node within (by decide))
      fun nodes given node inside => lastFound nodes given node inside (by decide)
  | loop _ _ _ repeated first second third found =>
    exact ReadBackAs.loop member repeated (first (by decide)) (second (by decide)) (third (by decide))
      fun node inside => found node inside (by decide)
  | returning value => exact ReadBackAs.returning member value
  | breaking => exact ReadBackAs.breaking member
  | ofStatement _ found => exact found (List.mem_cons_of_mem _ member)
  | precision graded typed =>
    obtain rfl := List.mem_singleton.mp member
    exact ReadBackAs.precision graded typed
  | qualified typed named value =>
    obtain rfl := List.mem_singleton.mp member
    exact ReadBackAs.qualified typed named value
  | function typed named declared performed found =>
    obtain rfl := List.mem_singleton.mp member
    exact ReadBackAs.function typed named declared performed
      fun node inside => found node inside (by decide)
  | _ => exact absurd member List.not_mem_nil

/-- A program is read back from its pieces with as many levels as its nesting needs. -/
theorem program_takes (grammar : Grammar) [grammar.Arranged] {nodes : List Node}
    (shaped : ShapedProgram nodes) {limit : Nat}
    (nested : NestedProgram limit nodes) {place : Place}
    (split : place.pieces = programPieces nodes) :
    ∃ final, readList (grammar.reader (limit + 2)) .root none place = .ok (nodes, final) := by
  obtain ⟨positive, within⟩ := nested
  rw [Node.listWithin_iff] at within
  cases limit with
  | zero => omega
  | succ limit =>
    have ends : (grammar.reader (limit + 3)).Refuses .root none [] :=
      statement_refuses limit .root fun piece none => by simp at none
    have each : ∀ before node after, nodes = before ++ node :: after →
        node.pieces true ≠ [] ∧ (grammar.reader (limit + 3)).Takes .root none (node.pieces true)
          (after.flatMap (Node.pieces true) ++ []) node := by
      intro before node after order
      have known := shaped node (by simp [order])
      constructor
      · exact known.pieces_ne_nil
      · have readBack : ReadBackAs grammar .top node := known.readBackAs (by decide)
        apply readBack (within node (by simp [order])) rfl
        intro piece shown
        cases after with
        | nil => simp at shown
        | cons next after =>
          have follower := shaped next (by simp [order])
          rw [List.append_nil, List.flatMap_cons,
            List.head?_append_of_ne_nil _ follower.pieces_ne_nil] at shown
          exact follower.head_ne_else shown
    obtain ⟨final, read, _⟩ := readList_takes ends (fun piece none => by simp at none) each
      (split.trans (List.append_nil _).symm)
    exact ⟨final, read⟩

section Nesting

open Filter

/-- Some nodes are nested within a limit if each of them is within one. -/
theorem Node.eventually_listWithin {nodes : List Node} {level : Nat}
    (each : ∀ node ∈ nodes, ∀ᶠ limit in atTop, node.Within limit level) :
    ∀ᶠ limit in atTop, Node.ListWithin limit level nodes := by
  induction nodes with
  | nil => exact .of_forall fun _ => trivial
  | cons node nodes inductionHypothesis =>
    exact (each node (by simp)).and
      (inductionHypothesis fun other member => each other (by simp [member]))

/-- A node that may be missing is nested within a limit if it is where it is there. -/
theorem Node.eventually_optionWithin {initial : Option Node} {level : Nat}
    (each : ∀ node, initial = some node → ∀ᶠ limit in atTop, node.Within limit level) :
    ∀ᶠ limit in atTop, Node.OptionWithin limit level initial := by
  cases initial with
  | none => exact .of_forall fun _ => trivial
  | some node => exact each node rfl

/-- A list of statements on a level is within every greater limit that its statements are
    within. -/
theorem Node.eventually_bodyWithin {nodes : List Node} {level : Nat}
    (each : ∀ node ∈ nodes, ∀ᶠ limit in atTop, node.Within limit level) :
    ∀ᶠ limit in atTop, level < limit ∧ Node.ListWithin limit level nodes :=
  (eventually_gt_atTop level).and (Node.eventually_listWithin each)

/-- Branches are nested within a limit if their conditions and statements are. -/
theorem Branch.eventually_listWithin {branches : List Branch} {level : Nat}
    (guards : ∀ branch ∈ branches, ∀ᶠ limit in atTop, branch.condition.Within limit level)
    (bodies : ∀ branch ∈ branches, ∀ node ∈ branch.body,
      ∀ᶠ limit in atTop, node.Within limit level) :
    ∀ᶠ limit in atTop, Branch.ListWithin limit level branches := by
  induction branches with
  | nil => exact .of_forall fun _ => trivial
  | cons branch branches inductionHypothesis =>
    refine Eventually.and ?_ (inductionHypothesis (fun other member => guards other (by simp [member]))
      fun other member => bodies other (by simp [member]))
    cases branch with
    | mk condition body =>
      exact (guards _ List.mem_cons_self).and
        (Node.eventually_bodyWithin (bodies _ List.mem_cons_self))

/-- Every node is nested within all limits that are great enough. -/
theorem Shaped.eventually_within {category : Category} {node : Node} (shaped : Shaped category node)
    (level : Nat) : ∀ᶠ limit in atTop, node.Within limit level := by
  induction shaped generalizing level with
  | float | int | reference => exact eventually_ge_atTop level
  | parenthesized _ found | unary _ found =>
    exact (eventually_ge_atTop level).and (found (level + 2))
  | call _ _ callee found =>
    exact (eventually_ge_atTop level).and ((callee level).and
      (Node.eventually_listWithin fun arg member => found arg member (level + 2)))
  | property _ _ found | trailingCrement _ _ found =>
    exact (eventually_ge_atTop level).and (found level)
  | leadingCrement _ _ found => exact (eventually_ge_atTop level).and (found (level + 2))
  | binary _ _ _ found =>
    exact (eventually_ge_atTop level).and
      (Node.eventually_listWithin fun operand member => found operand member level)
  | ofPrimary _ found | ofOperand _ found | ofClause _ found | ofStatement _ found =>
    exact found level
  | declaration _ _ _ found | qualified _ _ _ found | returning _ found =>
    exact Node.eventually_optionWithin fun value given => found value given (level + 1)
  | assignment _ _ found | expression _ found => exact found (level + 1)
  | propertyAssignment _ _ _ owner found => exact (owner (level + 1)).and (found (level + 1))
  | empty | breaking | precision => exact .of_forall fun _ => trivial
  | @conditional _ _ _ elseBody _ _ _ _ _ guard body guards bodies last =>
    refine (guard (level + 1)).and (.and ?_ (.and ?_ ?_))
    · exact Node.eventually_bodyWithin fun node member => body node member (level + 1)
    · exact Branch.eventually_listWithin (fun branch member => guards branch member (level + 1))
        fun branch member node inside => bodies branch member node inside (level + 1)
    · cases elseBody with
      | none => exact .of_forall fun _ => trivial
      | some nodes =>
        exact Node.eventually_bodyWithin fun node member => last nodes rfl node member (level + 1)
  | loop _ _ _ _ first second third body =>
    exact (first (level + 1)).and ((second (level + 1)).and ((third (level + 1)).and
      (Node.eventually_bodyWithin fun node member => body node member (level + 1))))
  | function _ _ _ _ body =>
    exact Node.eventually_bodyWithin fun node member => body node member (level + 1)

/-- Every shaped program is nested within some limit. -/
theorem ShapedProgram.eventually_nested {nodes : List Node} (shaped : ShapedProgram nodes) :
    ∀ᶠ limit in atTop, NestedProgram limit nodes :=
  Node.eventually_bodyWithin fun node member => (shaped node member).eventually_within 0

end Nesting

namespace Grammar

variable [grammar.Arranged] {tokens : List Token} {nodes : List Node}

/-- A program that is nested within the limit is read from tokens with its pieces. -/
theorem parseProgram_complete (shaped : ShapedProgram nodes)
    (nested : NestedProgram deepestLevel nodes)
    (shown : tokens.map Token.piece = programPieces nodes) :
    grammar.parseProgram tokens = .ok nodes := by
  have split : (Place.ofTokens tokens 0).pieces = programPieces nodes := shown
  obtain ⟨final, read⟩ := program_takes grammar shaped nested split
  have found : grammar.parseAll tokens 0 .root none = .ok (nodes, final) := read
  rw [parseProgram, found]
  rfl

/-- A program that is nested more deeply than the limit is rejected for its depth. A reader
    with more levels reads it back, so the one with fewer finds the same or wants levels, and it
    finds no program that is nested too deeply. -/
theorem parseProgram_deep (shaped : ShapedProgram nodes)
    (deep : ¬ NestedProgram deepestLevel nodes)
    (lexical : ∀ token ∈ tokens, token.piece.isLexical = true)
    (shown : tokens.map Token.piece = programPieces nodes) :
    ∃ error, grammar.parseProgram tokens = .error (.depth error) := by
  obtain ⟨limit, nested, bound⟩ :=
    (shaped.eventually_nested.and (Filter.eventually_ge_atTop deepestLevel)).exists
  have split : (Place.ofTokens tokens 0).pieces = programPieces nodes := shown
  obtain ⟨final, read⟩ := program_takes grammar shaped nested split
  have agrees : grammar.topReader.Agrees (grammar.reader (limit + 2)) :=
    Arranged.steady.reader_le (Nat.add_le_add_right bound 2)
  rcases agrees.readList .root none (.ofTokens tokens 0) with ⟨error, short⟩ | same
  · refine ⟨error, ?_⟩
    have failed : grammar.parseAll tokens 0 .root none = .error (.depth error) := short
    rw [parseProgram, failed]
    rfl
  · have found : grammar.parseAll tokens 0 .root none = .ok (nodes, final) := same.trans read
    have accepted : grammar.parseProgram tokens = .ok nodes := by
      rw [parseProgram, found]
      rfl
    exact absurd (parseProgram_sound lexical accepted).2.2 deep

end Grammar

end ShaderSource
