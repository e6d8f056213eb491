import ShaderSource.Proofs.Grammar.ExpressionSoundness

/-!
# What is read as a program

The statements, clauses and declarations that are read account for the pieces
that they take, if what is read in them does. So do all nodes that are found by
a reader with any number of levels, and with them every program that is
accepted.

That a body is nested within the limit does not show in its statements, since it
may have none. It shows in the attempt to read one more of them, which needs
three levels even where it fails.
-/

namespace ShaderSource

variable {grammar : Grammar}

namespace Category

/-- A statement ends with its `;` unless it is read as a clause. -/
theorem closed_eq {category : Category} (stated : category.isStatement = true) :
    (!category.flags.contains .simple) = category.closed := by
  cases category with
  | primary | operand | expression => exact Bool.noConfusion stated
  | clause | statement | top => decide

end Category

/-- What may be a clause may be any statement. -/
theorem Shaped.ofClauseIn {category : Category} (stated : category.isStatement = true)
    {node : Node} (clause : Shaped .clause node) : Shaped category node := by
  cases category with
  | primary | operand | expression => exact Bool.noConfusion stated
  | clause => exact clause
  | statement => exact .ofClause clause
  | top => exact .ofStatement (.ofClause clause)

/-- The target of an assignment is a property, which something can be written behind. -/
theorem Shaped.primary_of_property {node : Node} (expression : Shaped .expression node)
    (property : node.isProperty = true) : Shaped .primary node := by
  cases expression with
  | ofOperand operand =>
    cases operand with
    | ofPrimary primary => exact primary
    | unary => exact Bool.noConfusion property
    | leadingCrement => exact Bool.noConfusion property
  | binary => exact Bool.noConfusion property

/-- A closed node has at least one piece. -/
theorem Shaped.pieces_ne_nil {category : Category} {node : Node} (shaped : Shaped category node) :
    node.pieces true ≠ [] := by
  induction shaped with
  | ofPrimary _ found | ofOperand _ found | ofClause _ found | ofStatement _ found => exact found
  | @binary ops operands linked count parts found =>
    match operands, count with
    | first :: others, _ =>
      simp [Node.pieces, Node.piecesList, chainPieces, found first]
  | _ => simp [Node.pieces, Piece.guarded, Piece.statementEnd]

/-- The statements of a body have their shape and are nested within the limit. -/
structure Performs (limit level : Nat) (statements : List Node) : Prop where
  shaped : ∀ node ∈ statements, Shaped .statement node
  bound : level < limit
  within : Node.ListWithin limit level statements

namespace Grammar

open Production Attempt

variable [grammar.Arranged]

/-- With one level no expression is found, and not even that there is none. -/
theorem value_wants_levels {place : Place} (result : Option (Node × Place)) :
    grammar.reader 1 .value none place ≠ .ok result := by
  have short : Production.expression.build (grammar.setting 0 .value none) place =
      .error (.fatal (.depth ⟨maxDepth, place.span⟩)) := by
    simp [Production.build, readExpression, readOperand, bind_apply, node, setting, reader]
  intro found
  cases result with
  | none =>
    have mismatch := reader_eq_none_iff.mp found .expression (by decide)
    simp [short] at mismatch
  | some result =>
    obtain ⟨production, eligible, success⟩ := exists_of_reader found
    rw [eligible_value, List.mem_singleton] at eligible
    subst eligible
    simp [short] at success

/-- To find no statement takes three levels: the rule of an assignment to a property reads a
    value, and in it a single value. -/
theorem levels_of_refused {levels : Nat} {flags : Flags} {place : Place}
    (eligible : propertyAssignment ∈ Production.eligible flags)
    (refused : grammar.reader levels flags none place = .ok none) : 3 ≤ levels := by
  match levels with
  | 0 => exact absurd refused nofun
  | 1 =>
    rw [reader_eq_none_iff] at refused
    have mismatch := refused propertyAssignment eligible
    simp [Production.build, readPropertyAssignment, bind_apply, node, setting, reader] at mismatch
  | 2 =>
    rw [reader_eq_none_iff] at refused
    have mismatch := refused propertyAssignment eligible
    cases found : grammar.reader 1 .value none place with
    | ok result => exact absurd found (value_wants_levels result)
    | error error =>
      simp [Production.build, readPropertyAssignment, bind_apply, node, setting, found] at mismatch
  | levels + 3 => omega

end Grammar

namespace Production

open Attempt Grammar

variable {limit levels level : Nat} {category : Category}

section Parts

variable {flags : Flags} {subject : Option Node}

/-- What stands directly in a statement is one level further in. -/
theorem direct_reads (sound : Sound grammar limit levels) (deep : levels + (level + 1) = limit + 2)
    (inner : Category) (other : inner ≠ .primary) :
    (Attempt.node inner.flags).Reads (grammar.setting levels flags subject)
      (Accounts inner limit (level + 1)) :=
  reads_node (sound.reads inner (level + 1) other deep)

/-- A body that is read is its braces with the statements between them, each of its shape. -/
theorem reads_body [grammar.Arranged] (sound : Sound grammar limit levels)
    (deep : levels + (level + 1) = limit + 2) :
    body.Reads (grammar.setting levels flags subject) fun statements consumed =>
      consumed = Piece.braced (Node.piecesList statements) ∧
        Performs limit (level + 1) statements := by
  apply (reads_word (.bracket "\x7b") (by decide)).bind
  intro _ opening opened
  have each : NodeReader.Reads (grammar.setting levels flags subject).nested .statement none
      fun node consumed => consumed = node.pieces true ∧ consumed ≠ [] ∧
        Shaped .statement node ∧ node.Within limit (level + 1) := by
    intro place node after lexical found
    obtain ⟨consumed, split, rfl, shaped, within⟩ :=
      sound.reads .statement (level + 1) nofun deep place node after lexical found
    exact ⟨_, split, rfl, shaped.pieces_ne_nil, shaped, within⟩
  have halts : ∀ place, (grammar.setting levels flags subject).nested .statement none place = .ok none →
      level + 1 < limit := by
    intro place refused
    have enough := levels_of_refused (by rw [eligible_statement]; simp) refused
    omega
  apply (reads_nodes each halts).bind
  intro statements taken met
  refine (reads_word (.bracket "\x7d") (by decide)).bind fun _ closing closed => Reads.pure ?_
  subst opened closed
  obtain ⟨rfl, all, bound⟩ := met
  refine ⟨?_, fun node member => (all node member).1, bound, ?_⟩
  · simp [Piece.braced, Node.piecesList_eq_map, List.flatMap]
  · exact Node.listWithin_iff.mpr fun node member => (all node member).2

/-- A condition and the statements that it guards are the parts of a branch. -/
theorem reads_guarded [grammar.Arranged] (sound : Sound grammar limit levels)
    (deep : levels + (level + 1) = limit + 2) :
    guarded.Reads (grammar.setting levels flags subject) fun parts consumed =>
      consumed = Piece.guarded (parts.1.pieces true) (Node.piecesList parts.2) ∧
        Shaped .expression parts.1 ∧ parts.1.Within limit (level + 1) ∧
          Performs limit (level + 1) parts.2 := by
  refine (reads_word (.bracket "(") (by decide)).bind fun _ opening opened => ?_
  apply (direct_reads sound deep .expression (by decide)).bind
  intro condition taken inner
  refine (reads_word (.bracket ")") (by decide)).bind fun _ closing closed => ?_
  refine (reads_body sound deep).bind fun statements taken' met => Reads.pure ?_
  subst opened closed
  obtain ⟨rfl, shaped, within⟩ := inner
  obtain ⟨rfl, performs⟩ := met
  exact ⟨by simp [Piece.guarded, Category.closed], shaped, within, performs⟩

/-- An initial value that is read is an expression behind its sign, or there is none. -/
theorem reads_readInitial (sound : Sound grammar limit levels)
    (deep : levels + (level + 1) = limit + 2) :
    readInitial.Reads (grammar.setting levels flags subject) fun initial consumed =>
      consumed = Node.initialPieces initial ∧
        (∀ value, initial = some value → Shaped .expression value) ∧
        Node.OptionWithin limit (level + 1) initial := by
  apply reads_token?.bind
  intro shown taken met
  cases shown with
  | none =>
    obtain rfl := met.2 rfl
    exact Reads.pure ⟨rfl, nofun, trivial⟩
  | some shown =>
    obtain ⟨fits, lexical, rfl⟩ := met.1 shown rfl
    apply (direct_reads sound deep .expression (by decide)).map
    intro value consumed inner
    obtain ⟨rfl, shaped, within⟩ := inner
    have equals : Piece.equals.isLexical = true := by decide
    rw [Token.piece_eq lexical equals fits]
    refine ⟨rfl, fun other same => ?_, within⟩
    exact Option.some.inj same ▸ shaped

/-- A parameter that is read has two names, and a comma before it unless it is the first. -/
theorem reads_readParam (rounds : Nat) (params : List Param) :
    (readParam rounds params).Reads (grammar.setting levels flags subject) fun result consumed =>
      ∃ param, result = params ++ [param] ∧
        (isNameText param.ty = true ∧ isNameText param.name = true) ∧
        consumed = (if 0 < rounds then [Piece.comma] else []) ++ param.pieces := by
  apply reads_separator.bind
  intro _ opening separated
  apply reads_nameText.bind
  intro ty taken typed
  refine reads_nameText.bind fun name taken' named => Reads.pure ?_
  obtain ⟨typed, rfl⟩ := typed
  obtain ⟨named, rfl⟩ := named
  exact ⟨⟨ty, name⟩, rfl, ⟨typed, named⟩, by rw [separated]; simp [Param.pieces]⟩

end Parts

section Clauses

/-- The end of a statement is a `;`, which a clause of a loop leaves out. -/
theorem reads_end (stated : category.isStatement = true) :
    endStatement.Reads (grammar.setting levels category.flags none) fun _ consumed =>
      consumed = Piece.statementEnd category.closed :=
  reads_endStatement.imp fun _ _ met => met.trans (by rw [← Category.closed_eq stated]; rfl)

/-- A declaration that is read accounts for its pieces. -/
theorem reads_readDeclaration (stated : category.isStatement = true)
    (sound : Sound grammar limit levels)
    (deep : levels + (level + 1) = limit + 2) :
    readDeclaration.Reads (grammar.setting levels category.flags none)
      (Accounts category limit level) := by
  apply reads_readQualifier.bind
  intro qualifier taken qualified
  apply reads_flags.bind
  intro shown nothing met
  obtain ⟨rfl, rfl⟩ := met
  apply reads_validate.bind
  intro _ nothing met
  obtain ⟨allowed, rfl⟩ := met
  apply reads_nameText.bind
  intro ty taken typed
  apply reads_nameText.bind
  intro name taken' named
  apply (reads_readInitial sound deep).bind
  intro initial taken'' met
  refine (reads_end stated).bind fun _ ending ended => Reads.pure ?_
  subst qualified ended
  obtain ⟨typed, rfl⟩ := typed
  obtain ⟨named, rfl⟩ := named
  obtain ⟨rfl, shaped, within⟩ := met
  refine ⟨by simp [Node.pieces], ?_, within⟩
  cases qualifier with
  | none => exact .ofClauseIn stated (.declaration typed named shaped)
  | some word =>
    cases category with
    | primary | operand | expression => exact Bool.noConfusion stated
    | clause | statement =>
      simp only [setting, Option.isNone_some, Bool.false_or] at allowed
      exact absurd allowed (by decide)
    | top => exact .qualified typed named shaped

/-- An assignment that is read accounts for its pieces. -/
theorem reads_readAssignment (stated : category.isStatement = true)
    (sound : Sound grammar limit levels)
    (deep : levels + (level + 1) = limit + 2) :
    readAssignment.Reads (grammar.setting levels category.flags none)
      (Accounts category limit level) := by
  apply reads_nameText.bind
  intro name taken named
  apply reads_assignOp.bind
  intro op taken' assigned
  apply (direct_reads sound deep .expression (by decide)).bind
  intro value taken'' inner
  refine (reads_end stated).bind fun _ ending ended => Reads.pure ?_
  subst assigned ended
  obtain ⟨named, rfl⟩ := named
  obtain ⟨rfl, shaped, within⟩ := inner
  exact ⟨by simp [Node.pieces, Category.closed], .ofClauseIn stated (.assignment named shaped), within⟩

/-- An assignment to a property that is read accounts for its pieces: what is assigned to is a
    property. -/
theorem reads_readPropertyAssignment (stated : category.isStatement = true)
    (sound : Sound grammar limit levels) (deep : levels + (level + 1) = limit + 2) :
    readPropertyAssignment.Reads (grammar.setting levels category.flags none)
      (Accounts category limit level) := by
  apply (direct_reads sound deep .expression (by decide)).bind
  intro target taken owner
  apply reads_validate.bind
  intro _ nothing met
  obtain ⟨property, rfl⟩ := met
  apply reads_assignOp.bind
  intro op taken' assigned
  apply (direct_reads sound deep .expression (by decide)).bind
  intro value taken'' inner
  refine (reads_end stated).bind fun _ ending ended => Reads.pure ?_
  subst assigned ended
  obtain ⟨rfl, owned, bounded⟩ := owner
  obtain ⟨rfl, shaped, within⟩ := inner
  refine ⟨by simp [Node.pieces, Category.closed], .ofClauseIn stated ?_, bounded, within⟩
  exact .propertyAssignment (Shaped.primary_of_property owned property) property shaped

/-- An expression statement that is read accounts for its pieces. -/
theorem reads_readExpressionStatement (stated : category.isStatement = true)
    (sound : Sound grammar limit levels) (deep : levels + (level + 1) = limit + 2) :
    readExpressionStatement.Reads (grammar.setting levels category.flags none)
      (Accounts category limit level) := by
  apply (direct_reads sound deep .expression (by decide)).bind
  intro value taken inner
  refine (reads_end stated).bind fun _ ending ended => Reads.pure ?_
  subst ended
  obtain ⟨rfl, shaped, within⟩ := inner
  exact ⟨by simp [Node.pieces, Category.closed], .ofClauseIn stated (.expression shaped), within⟩

/-- A lone `;` is read, or nothing at all as a clause. -/
theorem reads_readEmptyStatement (stated : category.isStatement = true) :
    readEmptyStatement.Reads (grammar.setting levels category.flags none)
      (Accounts category limit level) := by
  apply reads_flags.bind
  intro shown nothing met
  obtain ⟨rfl, rfl⟩ := met
  have ends : (grammar.setting levels category.flags none).flags.contains .simple =
      !category.closed := by
    rw [← Category.closed_eq stated, Bool.not_not]
    rfl
  cases closed : category.closed with
  | true =>
    simp only [ends, closed, Bool.not_true, Bool.false_eq_true, if_false]
    refine (reads_word .semicolon (by decide)).bind fun _ taken marked => Reads.pure ?_
    subst marked
    exact ⟨by simp [Node.pieces, closed, Piece.statementEnd], .ofClauseIn stated .empty, trivial⟩
  | false =>
    simp only [ends, closed, Bool.not_false, if_true]
    apply reads_nextMatches.bind
    intro shown nothing empty
    refine reads_validate.bind fun _ nothing met => Reads.pure ?_
    obtain ⟨_, rfl⟩ := met
    subst empty
    exact ⟨by simp [Node.pieces, closed, Piece.statementEnd], .ofClauseIn stated .empty, trivial⟩

end Clauses

section Statements

variable {flags : Flags} {subject : Option Node}

/-- The branches that were read so far, of which only the last has no condition. -/
structure Branched (limit level : Nat) (branches : List Branch × Option (List Node))
    (taken : List Piece) : Prop where
  pieces : taken = Branch.piecesList branches.1 ++ Node.elsePieces branches.2
  guards : ∀ branch ∈ branches.1, Shaped .expression branch.condition ∧
    branch.condition.Within limit level ∧ Performs limit level branch.body
  last : ∀ statements, branches.2 = some statements → Performs limit level statements

/-- One more branch is read only behind branches with a condition. -/
theorem reads_readElse [grammar.Arranged] (sound : Sound grammar limit levels)
    (deep : levels + (level + 1) = limit + 2)
    (rounds : Nat) {branches : List Branch × Option (List Node)} {taken : List Piece}
    (branched : Branched limit (level + 1) branches taken) :
    (readElse rounds branches).Reads (grammar.setting levels flags subject) fun result consumed =>
      Branched limit (level + 1) result (taken ++ consumed) := by
  obtain ⟨elseIfs, last⟩ := branches
  apply reads_validate.bind
  intro _ nothing met
  obtain ⟨open_, rfl⟩ := met
  obtain rfl : last = none := Option.isNone_iff_eq_none.mp open_
  obtain ⟨rfl, guards, _⟩ := branched
  apply (reads_word (.word "else") (by decide)).bind
  intro _ otherwise shown
  apply reads_token?.bind
  intro second taken met
  subst shown
  cases second with
  | none =>
    obtain rfl := met.2 rfl
    refine (reads_body sound deep).bind fun statements consumed met => Reads.pure ?_
    obtain ⟨rfl, performs⟩ := met
    refine ⟨by simp [Node.elsePieces], guards, fun other same => ?_⟩
    exact Option.some.inj same ▸ performs
  | some second =>
    obtain ⟨fits, lexical, rfl⟩ := met.1 second rfl
    have word : (Piece.word "if").isLexical = true := by decide
    rw [Token.piece_eq lexical word fits]
    refine (reads_guarded sound deep).bind fun parts consumed met => Reads.pure ?_
    obtain ⟨rfl, shaped, within, performs⟩ := met
    refine ⟨?_, ?_, nofun⟩
    · simp [Branch.piecesList_eq_flatMap, Node.elsePieces, Branch.pieces]
    · intro branch member
      rcases List.mem_append.mp member with member | member
      · exact guards branch member
      · exact List.mem_singleton.mp member ▸ ⟨shaped, within, performs⟩

/-- A conditional that is read accounts for its pieces, with all its branches. -/
theorem reads_readConditional [grammar.Arranged] (sound : Sound grammar limit levels)
    (deep : levels + (level + 1) = limit + 2) :
    readConditional.Reads (grammar.setting levels flags subject) (Accounts .statement limit level) := by
  apply (reads_word (.word "if") (by decide)).bind
  intro _ taken shown
  apply (reads_guarded sound deep).bind
  intro parts consumed met
  obtain ⟨condition, statements⟩ := parts
  subst shown
  obtain ⟨rfl, shaped, within, performs⟩ := met
  let Read (_ : Nat) := Branched limit (level + 1)
  have start : Read 0 ([], none) [] := ⟨rfl, by simp, nofun⟩
  refine (reads_repeatWhen (fun rounds _ _ => reads_readElse sound deep rounds) start).bind
    fun branches consumed branched => Reads.pure ?_
  obtain ⟨elseIfs, last⟩ := branches
  obtain ⟨_, split, guards, ends⟩ := branched
  refine ⟨?_, .conditional shaped performs.shaped (fun branch member => (guards branch member).1)
    (fun branch member => (guards branch member).2.2.shaped)
    (fun nodes same => (ends nodes same).shaped), ?_⟩
  · simpa [Node.pieces] using split
  · simp only [Node.Within, Branch.listWithin_iff]
    refine ⟨within, ⟨performs.bound, performs.within⟩, ?_, ?_⟩
    · rintro ⟨guard, inner⟩ member
      have known := guards _ member
      exact ⟨known.2.1, known.2.2.bound, known.2.2.within⟩
    · cases last with
      | none => trivial
      | some nodes => exact ⟨(ends nodes rfl).bound, (ends nodes rfl).within⟩

/-- A loop that is read accounts for its pieces, with its three clauses. -/
theorem reads_readLoop [grammar.Arranged] (sound : Sound grammar limit levels)
    (deep : levels + (level + 1) = limit + 2) :
    readLoop.Reads (grammar.setting levels flags subject) (Accounts .statement limit level) := by
  apply (reads_word (.word "for") (by decide)).bind
  intro _ first shown
  refine (reads_word (.bracket "(") (by decide)).bind fun _ opening opened => ?_
  apply (direct_reads sound deep .clause (by decide)).bind
  intro init taken begins
  apply (reads_word .semicolon (by decide)).bind
  intro _ second marked
  apply (direct_reads sound deep .clause (by decide)).bind
  intro check taken' checks
  apply (reads_word .semicolon (by decide)).bind
  intro _ third marked'
  apply (direct_reads sound deep .clause (by decide)).bind
  intro increment taken'' steps
  refine (reads_word (.bracket ")") (by decide)).bind fun _ closing closed => ?_
  refine (reads_body sound deep).bind fun statements consumed met => Reads.pure ?_
  subst shown opened marked marked' closed
  obtain ⟨rfl, begins, beginsWithin⟩ := begins
  obtain ⟨rfl, checks, checksWithin⟩ := checks
  obtain ⟨rfl, steps, stepsWithin⟩ := steps
  obtain ⟨rfl, performs⟩ := met
  refine ⟨by simp [Node.pieces, Category.closed], .loop begins checks steps performs.shaped, ?_⟩
  exact ⟨beginsWithin, checksWithin, stepsWithin, performs.bound, performs.within⟩

/-- A return statement that is read accounts for its pieces, with its value or without one. -/
theorem reads_readReturn (sound : Sound grammar limit levels)
    (deep : levels + (level + 1) = limit + 2) :
    readReturn.Reads (grammar.setting levels flags subject) (Accounts .statement limit level) := by
  apply (reads_word (.word "return") (by decide)).bind
  intro _ first shown
  apply reads_nextMatches.bind
  intro found nothing empty
  subst shown empty
  have ends : ∀ result, (∀ node, result = some node → Shaped .expression node) →
      Node.OptionWithin limit (level + 1) result →
      (do let _ ← word ";"; return .returning result : Attempt Node).Reads
        (grammar.setting levels flags subject) fun node consumed =>
          Accounts .statement limit level node
            (.word "return" :: Node.resultPieces result ++ consumed) := by
    intro result shaped within
    refine (reads_word .semicolon (by decide)).bind fun _ ending marked => Reads.pure ?_
    subst marked
    exact ⟨by simp [Node.pieces], .returning shaped, within⟩
  cases found with
  | true => exact ends none (by simp) trivial
  | false =>
    simp only [Bool.false_eq_true, if_false, bind_map_left]
    apply (direct_reads sound deep .expression (by decide)).bind
    intro value taken inner
    obtain ⟨rfl, shaped, within⟩ := inner
    exact ends (some value) (fun other same => Option.some.inj same ▸ shaped) within

/-- A break statement that is read accounts for its two pieces. -/
theorem reads_readBreak :
    readBreak.Reads (grammar.setting levels flags subject) (Accounts .statement limit level) := by
  apply (reads_word (.word "break") (by decide)).bind
  intro _ first shown
  refine (reads_word .semicolon (by decide)).bind fun _ ending marked => Reads.pure ?_
  subst shown marked
  exact ⟨rfl, .breaking, trivial⟩

/-- A precision statement that is read accounts for its four pieces. -/
theorem reads_readPrecision :
    readPrecision.Reads (grammar.setting levels flags subject) (Accounts .top limit level) := by
  apply (reads_word (.word "precision") (by decide)).bind
  intro _ first shown
  apply reads_nameText.bind
  intro grade taken graded
  apply reads_nameText.bind
  intro ty taken' typed
  refine (reads_word .semicolon (by decide)).bind fun _ ending marked => Reads.pure ?_
  subst shown marked
  obtain ⟨graded, rfl⟩ := graded
  obtain ⟨typed, rfl⟩ := typed
  exact ⟨rfl, .precision graded typed, trivial⟩

/-- A function that is read accounts for its pieces, with parameters and body. -/
theorem reads_readFunction [grammar.Arranged] (sound : Sound grammar limit levels)
    (deep : levels + (level + 1) = limit + 2) :
    readFunction.Reads (grammar.setting levels flags subject) (Accounts .top limit level) := by
  apply reads_nameText.bind
  intro returnType taken typed
  apply reads_nameText.bind
  intro name taken' named
  refine (reads_word (.bracket "(") (by decide)).bind fun _ opening opened => ?_
  apply (reads_separated reads_readParam).bind
  intro params taken'' listed
  refine (reads_word (.bracket ")") (by decide)).bind fun _ closing closed => ?_
  refine (reads_body sound deep).bind fun statements consumed met => Reads.pure ?_
  subst opened closed
  obtain ⟨typed, rfl⟩ := typed
  obtain ⟨named, rfl⟩ := named
  obtain ⟨rfl, all⟩ := listed
  obtain ⟨rfl, performs⟩ := met
  exact ⟨by simp [Node.pieces], .function typed named all performs.shaped, performs.bound,
    performs.within⟩

end Statements

end Production

/-- A statement of a body is also one at the top of a program. -/
theorem Accounts.ofStatement {limit level : Nat} {node : Node} {taken : List Piece}
    (accounts : Accounts .statement limit level node taken) :
    Accounts .top limit level node taken :=
  ⟨accounts.pieces, .ofStatement accounts.shaped, accounts.within⟩

namespace Grammar

open Production Attempt

variable [grammar.Arranged] {limit levels level : Nat}

/-- What a reader with one level more finds accounts for what it takes. -/
theorem statement_reads (sound : Sound grammar limit levels)
    (deep : levels + (level + 1) = limit + 2)
    {category : Category} (stated : category.isStatement = true) :
    (grammar.reader (levels + 1)).Reads category.flags none (Accounts category limit level) := by
  apply reader_reads
  intro production eligible
  cases category with
  | primary | operand | expression => exact Bool.noConfusion stated
  | clause =>
    rw [Category.flags, eligible_simple] at eligible
    simp only [List.mem_cons, List.not_mem_nil, or_false] at eligible
    rcases eligible with rfl | rfl | rfl | rfl | rfl
    · exact reads_readDeclaration stated sound deep
    · exact reads_readAssignment stated sound deep
    · exact reads_readPropertyAssignment stated sound deep
    · exact reads_readExpressionStatement stated sound deep
    · exact reads_readEmptyStatement stated
  | statement =>
    rw [Category.flags, eligible_statement] at eligible
    simp only [List.mem_cons, List.not_mem_nil, or_false] at eligible
    rcases eligible with rfl | rfl | rfl | rfl | rfl | rfl | rfl | rfl | rfl
    · exact reads_readDeclaration stated sound deep
    · exact reads_readAssignment stated sound deep
    · exact reads_readPropertyAssignment stated sound deep
    · exact reads_readConditional sound deep
    · exact reads_readLoop sound deep
    · exact reads_readReturn sound deep
    · exact reads_readBreak
    · exact reads_readExpressionStatement stated sound deep
    · exact reads_readEmptyStatement stated
  | top =>
    rw [Category.flags, eligible_root] at eligible
    simp only [List.mem_cons, List.not_mem_nil, or_false] at eligible
    rcases eligible with rfl | rfl | rfl | rfl | rfl | rfl | rfl | rfl | rfl | rfl | rfl
    · exact reads_readPrecision
    · exact reads_readDeclaration stated sound deep
    · exact reads_readFunction sound deep
    · exact reads_readAssignment stated sound deep
    · exact reads_readPropertyAssignment stated sound deep
    · exact (reads_readConditional sound deep).imp fun _ _ => Accounts.ofStatement
    · exact (reads_readLoop sound deep).imp fun _ _ => Accounts.ofStatement
    · exact (reads_readReturn sound deep).imp fun _ _ => Accounts.ofStatement
    · exact reads_readBreak.imp fun _ _ => Accounts.ofStatement
    · exact reads_readExpressionStatement stated sound deep
    · exact reads_readEmptyStatement stated

/-- All that is found with any number of levels accounts for what it takes. The induction is on
    the levels; an expression looks two of them down. -/
theorem sound (limit levels : Nat) : Sound grammar limit levels := by
  induction levels using Nat.strongRecOn with
  | ind levels inductionHypothesis =>
    refine ⟨fun category level other deep => ?_, fun bound place node after lexical found more further =>
      operand_settled inductionHypothesis bound lexical found further⟩
    by_cases stated : category.isStatement = true
    · cases levels with
      | zero => exact fun place node after _ found => absurd found nofun
      | succ levels =>
        exact statement_reads (inductionHypothesis levels (Nat.lt_succ_self levels)) (by omega) stated
    · cases category with
      | primary => exact absurd rfl other
      | operand => exact operand_reads inductionHypothesis deep
      | expression => exact expression_reads inductionHypothesis deep
      | clause | statement | top => exact absurd rfl stated

/-- What is read at the top of a program has the shape of its statements and is nested within the
    limit. -/
theorem topReader_reads (grammar : Grammar) [grammar.Arranged] :
    NodeReader.Reads grammar.topReader .root none fun node consumed =>
      consumed = node.pieces true ∧ consumed ≠ [] ∧
        Shaped .top node ∧ node.Within deepestLevel 0 := by
  intro place node after lexical found
  obtain ⟨consumed, split, rfl, shaped, within⟩ :=
    (sound deepestLevel (maxDepth + 1)).reads .top 0 nofun rfl place node after lexical found
  exact ⟨_, split, rfl, shaped.pieces_ne_nil, shaped, within⟩

/-- Lexical tokens stand behind the front of a program. -/
theorem lexical_ofTokens {tokens : List Token}
    (lexical : ∀ token ∈ tokens, token.piece.isLexical = true) :
    (Place.ofTokens tokens 0).Lexical :=
  List.forall_mem_map.mpr lexical

/-- A program that is read from lexical tokens has their pieces and the shape of a program, and
    it is nested within the limit. -/
theorem parseProgram_sound {tokens : List Token} {nodes : List Node}
    (lexical : ∀ token ∈ tokens, token.piece.isLexical = true)
    (accepted : grammar.parseProgram tokens = .ok nodes) :
    tokens.map Token.piece = programPieces nodes ∧ ShapedProgram nodes ∧
      NestedProgram deepestLevel nodes := by
  obtain ⟨⟨read, final⟩, success, rfl⟩ : ∃ result,
      readList grammar.topReader .root none (.ofTokens tokens 0) = .ok result ∧ result.1 = nodes := by
    unfold parseProgram parseAll at accepted
    cases result : readList grammar.topReader .root none (.ofTokens tokens 0) with
    | error error => simp [result, Except.map] at accepted
    | ok found =>
      rw [result] at accepted
      exact ⟨found, rfl, Except.ok.inj accepted⟩
  obtain ⟨split, all, _, ended⟩ :=
    readList_reads grammar.topReader_reads (lexical_ofTokens lexical) success
  have rest : final.pieces = [] := by
    cases shown : final.pieces with
    | nil => rfl
    | cons piece pieces => exact absurd (ended piece (by rw [shown]; rfl)) nofun
  refine ⟨?_, fun node member => (all node member).1, by decide, ?_⟩
  · rw [rest, List.append_nil] at split
    exact split
  · exact Node.listWithin_iff.mpr fun node member => (all node member).2

end Grammar

end ShaderSource
