import ShaderSource.Proofs.Grammar.Rules
import ShaderSource.Proofs.Grammar.Words

/-!
# Which rules do not fit

A rule that finds a first piece with which it cannot begin does not fit, and the
next rule is tried. For the rules that begin with an expression this takes one
or two levels more, since the expression is looked for in readers of their own.

Where the first piece is a name, the second tells a declaration, a function and
an assignment apart from an expression.
-/

namespace ShaderSource

namespace Production

open Attempt Grammar

/-- Whether a rule can begin with a piece, or before it: an empty clause stands before a `;` or
    a `)`. -/
def opens : Production → Piece → Bool
  | precision, piece => piece.text == "precision"
  | declaration, piece =>
    (Qualifier.all.map Qualifier.spelling).contains piece.text || piece.isName
  | function, piece => piece.isName
  | assignment, piece => piece.isName
  | propertyAssignment, piece => piece.opensOperand
  | conditional, piece => piece.text == "if"
  | loop, piece => piece.text == "for"
  | returning, piece => piece.text == "return"
  | breaking, piece => piece.text == "break"
  | expressionStatement, piece => piece.opensOperand
  | emptyStatement, piece => [";", ")"].contains piece.text
  | float, piece => piece.kind == .float
  | int, piece => piece.kind == .integer
  | reference, piece => piece.isName
  | parenthesized, piece => piece.text == "("
  | unary, piece => (UnaryOp.all.map UnaryOp.spelling).contains piece.text
  | leadingCrement, piece => piece.kind == .crement
  | expression, piece => piece.opensOperand
  | call, piece => piece.text == "("
  | property, piece => piece.text == "."
  | trailingCrement, piece => piece.kind == .crement

/-- How many levels a rule needs to find that it cannot begin with a piece. -/
def lookahead : Production → Nat
  | propertyAssignment | expressionStatement => 2
  | expression => 1
  | _ => 0

/-- The class of the pieces that a rule for a single value begins with. -/
def openingKind : Production → TokenKind
  | float => .float
  | int => .integer
  | reference => .identifier
  | parenthesized => .bracket
  | unary => .operator
  | _ => .crement

/-- The class of its first piece decides which rule reads a single value. -/
theorem kind_of_opens {production : Production} (member : production ∈ eligible .single)
    {first : Piece} (lexical : first.isLexical = true) (opened : production.opens first = true) :
    first.kind = production.openingKind := by
  rw [eligible_single] at member
  simp only [List.mem_cons, List.not_mem_nil, or_false] at member
  rcases member with rfl | rfl | rfl | rfl | rfl | rfl
  · exact eq_of_beq opened
  · exact eq_of_beq opened
  · simp only [opens, Piece.isName, Bool.and_eq_true] at opened
    exact eq_of_beq opened.1
  · have bracket : (Piece.bracket "(").isLexical = true := by decide
    rw [Piece.eq_of_text lexical bracket (eq_of_beq opened)]
    rfl
  · simp only [opens, List.contains_iff_mem] at opened
    obtain ⟨op, _, same⟩ := List.mem_map.mp opened
    rw [Piece.eq_of_text lexical op.plain_piece.lexical same.symm]
    rfl
  · exact eq_of_beq opened

/-- What one rule for a single value begins with, no other one does. -/
theorem closed_of_single {production other : Production} (member : production ∈ eligible .single)
    (member' : other ∈ eligible .single) (apart : other ≠ production) {first : Piece}
    (lexical : first.isLexical = true) (opened : production.opens first = true) :
    other.opens first = false := by
  have told : ∀ left ∈ eligible .single, ∀ right ∈ eligible .single,
      left.openingKind = right.openingKind → left = right := by decide
  rw [Bool.eq_false_iff]
  intro opened'
  exact apart (told other member' production member
    ((kind_of_opens member' lexical opened').symm.trans (kind_of_opens member lexical opened)))

variable {setting : Setting} {pieces : List Piece}

/-- A name is rejected before a piece that is none. -/
theorem rejects_nameText
    (other : ∀ piece, pieces.head? = some piece → piece.isName = false) :
    nameText.Rejects setting pieces :=
  Rejects.bind (rejects_token fun shown same => other shown.piece same)

/-- The operator of a step is rejected before a piece of another kind. -/
theorem rejects_crementOp
    (other : ∀ piece, pieces.head? = some piece → (piece.kind == .crement) = false) :
    crementOp.Rejects setting pieces :=
  Rejects.bind (rejects_token fun shown same => other shown.piece same)

/-- What is rejected behind every node is rejected behind the one before the place. -/
theorem rejects_subject {next : Node → Attempt Node}
    (following : ∀ value, (next value).Rejects setting pieces) :
    (subject >>= next).Rejects setting pieces := by
  intro place split
  rw [bind_apply, subject]
  cases setting.subject with
  | none => rfl
  | some value => exact following value place split

/-- The qualifiers are reserved words. -/
theorem unqualified_of_ne {word : String} (free : ∀ text ∈ reservedWords, word ≠ text) :
    (Qualifier.all.map Qualifier.spelling).contains word = false := by
  have reserved : ∀ text ∈ Qualifier.all.map Qualifier.spelling, text ∈ reservedWords := by decide
  rw [Bool.eq_false_iff, ne_eq, List.contains_iff_mem]
  exact fun member => free word (reserved word member) rfl

/-- No qualifier is read before a piece that is none. -/
theorem takes_readQualifier_none (other : ∀ piece, pieces.head? = some piece →
      (Qualifier.all.map Qualifier.spelling).contains piece.text = false) :
    readQualifier.Takes setting [] pieces fun read => read = none := by
  refine (takes_token?_none fun shown same => other shown.piece same).skip fun shown none => ?_
  subst none
  exact Takes.pure rfl

/-- A name does not fit, or what follows it does not. -/
theorem rejects_behind_name {α : Type} {next : String → Attempt α}
    (following : ∀ first rest, pieces = first :: rest → first.isName = true →
      (next first.text).Rejects setting rest) :
    (nameText >>= next).Rejects setting pieces := by
  cases pieces with
  | nil => exact (rejects_nameText fun piece none => by simp at none).bind
  | cons first rest =>
    by_cases named : first.isName = true
    · have takes : nameText.Takes setting [first] rest fun read => read = first.text := by
        refine (takes_token fun shown same => ?_).close fun shown same => Takes.pure ?_
        · exact (congrArg Piece.isName same).trans named
        · exact congrArg Piece.text same
      apply takes.rejects
      intro name same
      subst same
      exact following first rest rfl named
    · refine (rejects_nameText fun piece shown => ?_).bind
      obtain rfl := Option.some.inj shown
      exact Bool.eq_false_of_not_eq_true named

/-- A declaration begins with a type and a name, once there is no qualifier. -/
theorem rejects_readDeclaration (unqualified : ∀ piece, pieces.head? = some piece →
      (Qualifier.all.map Qualifier.spelling).contains piece.text = false)
    (untyped : ∀ next : String → String → Attempt Node,
      (nameText >>= fun ty => nameText >>= fun name => next ty name).Rejects setting pieces) :
    readDeclaration.Rejects setting pieces := by
  apply (takes_readQualifier_none unqualified).skip_rejects
  intro qualifier none
  subst none
  apply takes_flags.skip_rejects
  intro flags _
  exact (takes_validate rfl).skip_rejects fun _ _ => untyped _

/-- A rule that reads no expression first rejects pieces that it cannot begin with. -/
theorem rejects_direct {production : Production} (direct : production.lookahead = 0)
    (other : ∀ piece, pieces.head? = some piece → production.opens piece = false) :
    production.build.Rejects setting pieces := by
  cases production with
  | precision | conditional | loop | returning | breaking | parenthesized =>
    exact (rejects_word other).bind
  | function | assignment | reference => exact (rejects_nameText other).bind
  | float | int => exact (rejects_token fun shown same => other shown.piece same).bind
  | unary => exact (rejects_token fun shown same => other shown.piece same).bind
  | leadingCrement => exact (rejects_crementOp other).bind
  | call | property => exact rejects_subject fun value => (rejects_word other).bind
  | trailingCrement => exact rejects_subject fun value => (rejects_crementOp other).bind
  | propertyAssignment | expressionStatement | expression => exact absurd direct (by decide)
  | declaration =>
    simp only [opens, Bool.or_eq_false_iff] at other
    exact rejects_readDeclaration (fun piece shown => (other piece shown).1)
      fun _ => (rejects_nameText fun piece shown => (other piece shown).2).bind
  | emptyStatement =>
    apply takes_flags.skip_rejects
    intro flags _
    cases flags.contains .simple with
    | true =>
      refine (takes_nextMatches_false fun shown same => ?_).skip_rejects fun found same => ?_
      · exact other shown.piece same
      · exact (rejects_validate same).bind
    | false =>
      refine (rejects_word fun piece shown => ?_).bind
      have unmarked := other piece shown
      simp only [opens, List.contains_cons, Bool.or_eq_false_iff] at unmarked
      exact unmarked.1

section Names

variable {name : String} (named : isNameText name = true)

include named

/-- A name begins none of the statements that begin with a word of their own. -/
theorem mem_of_opens_name {production : Production} (member : production ∈ eligible .root)
    (opened : production.opens (.word name) = true) :
    production ∈ [declaration, function, assignment, propertyAssignment, expressionStatement] := by
  have free : ∀ {text : String}, text ∈ reservedWords → ¬ (name == text) = true :=
    fun reserved same => ne_of_isNameText named reserved (eq_of_beq same)
  have unmarked : ¬ [";", ")"].contains name = true := by
    have unnamed : ∀ text ∈ [";", ")"], isNameText text = false := by decide
    rw [List.contains_iff_mem]
    intro marks
    rw [unnamed name marks] at named
    exact Bool.noConfusion named
  rw [eligible_root] at member
  simp only [List.mem_cons, List.not_mem_nil, or_false] at member
  rcases member with rfl | rfl | rfl | rfl | rfl | rfl | rfl | rfl | rfl | rfl | rfl
  · exact absurd opened (free (by decide))
  · decide
  · decide
  · decide
  · decide
  · exact absurd opened (free (by decide))
  · exact absurd opened (free (by decide))
  · exact absurd opened (free (by decide))
  · exact absurd opened (free (by decide))
  · decide
  · exact absurd opened unmarked

/-- A name that no second name follows begins neither a declaration nor a function. -/
theorem rejects_lone_name {second : Piece} {rest : List Piece} (other : second.isName = false)
    (next : String → String → Attempt Node) :
    (nameText >>= fun ty => nameText >>= fun name => next ty name).Rejects setting
      (.word name :: second :: rest) := by
  refine (takes_nameText named).rejects fun _ _ => (rejects_nameText fun piece shown => ?_).bind
  obtain rfl := Option.some.inj shown
  exact other

/-- A name is no qualifier. -/
theorem rejects_readDeclaration_of_name {rest : List Piece}
    (untyped : ∀ next : String → String → Attempt Node,
      (nameText >>= fun ty => nameText >>= fun name => next ty name).Rejects setting
        (.word name :: rest)) :
    readDeclaration.Rejects setting (.word name :: rest) := by
  refine rejects_readDeclaration (fun piece shown => ?_) untyped
  obtain rfl := Option.some.inj shown
  exact unqualified_of_ne fun text reserved => ne_of_isNameText named reserved

/-- Two names do not begin an assignment. -/
theorem rejects_readAssignment_of_names {second : String} {rest : List Piece} :
    readAssignment.Rejects setting (.word name :: .word second :: rest) := by
  refine (takes_nameText named).rejects fun _ _ => (rejects_token fun shown same => ?_).bind.bind
  have kind : shown.kind = .identifier := congrArg Piece.kind (Option.some.inj same).symm
  simp [Token.hasKind, kind]

end Names

end Production

namespace OpensExpression

open Production Attempt Grammar

variable {setting : Setting} {pieces : List Piece}

/-- What begins like an expression has no second name behind a name. -/
theorem rejects_names (opens : OpensExpression pieces) {α : Type}
    (next : String → String → Attempt α) :
    (nameText >>= fun ty => nameText >>= fun name => next ty name).Rejects setting pieces := by
  apply rejects_behind_name
  intro first rest shown named
  refine (rejects_nameText fun second goes => ?_).bind
  obtain ⟨known, others, split, _, _, further⟩ := opens
  obtain ⟨rfl, rfl⟩ := List.cons.inj (shown.symm.trans split)
  have continues := further named second goes
  simp only [Piece.continuesValue, Bool.and_eq_true, Bool.not_eq_true'] at continues
  exact continues.1

/-- What begins like an expression is no declaration. -/
theorem rejects_readDeclaration (opens : OpensExpression pieces) :
    readDeclaration.Rejects setting pieces := by
  refine Production.rejects_readDeclaration (fun piece shown => ?_) fun next => opens.rejects_names next
  exact unqualified_of_ne fun text reserved => opens.head_ne shown reserved

/-- What begins like an expression is no function. -/
theorem rejects_readFunction (opens : OpensExpression pieces) :
    readFunction.Rejects setting pieces := opens.rejects_names _

/-- What begins like an expression is no assignment to a name. -/
theorem rejects_readAssignment (opens : OpensExpression pieces) :
    readAssignment.Rejects setting pieces := by
  apply rejects_behind_name
  intro first rest shown named
  refine (rejects_token fun second goes => ?_).bind.bind
  obtain ⟨known, others, split, _, _, further⟩ := opens
  obtain ⟨rfl, rfl⟩ := List.cons.inj (shown.symm.trans split)
  have continues := further named second.piece goes
  simp only [Piece.continuesValue, Bool.and_eq_true, bne_iff_ne, ne_eq] at continues
  exact beq_false_of_ne continues.2

/-- What begins like an expression is only an expression or an assignment to a property. -/
theorem rejects (opens : OpensExpression pieces) {production : Production}
    (member : production ∈ eligible .root) (other : production ≠ propertyAssignment)
    (last : production ≠ expressionStatement) :
    production.build.Rejects setting pieces := by
  have wordless : ∀ {word : String} {next : Token → Attempt Node}, word ∈ reservedWords →
      (Production.word word >>= next).Rejects setting pieces := fun reserved =>
    (rejects_word fun _ shown => beq_false_of_ne (opens.head_ne shown reserved)).bind
  rw [eligible_root] at member
  simp only [List.mem_cons, List.not_mem_nil, or_false] at member
  rcases member with rfl | rfl | rfl | rfl | rfl | rfl | rfl | rfl | rfl | rfl | rfl
  · exact wordless (by decide)
  · exact opens.rejects_readDeclaration
  · exact opens.rejects_readFunction
  · exact opens.rejects_readAssignment
  · exact absurd rfl other
  · exact wordless (by decide)
  · exact wordless (by decide)
  · exact wordless (by decide)
  · exact wordless (by decide)
  · exact absurd rfl last
  · refine rejects_direct rfl fun piece shown => ?_
    have marks : ∀ text ∈ [";", ")"], piece.text ≠ text := by
      simp only [List.forall_mem_cons]
      exact ⟨opens.head_text_ne shown .semicolon (by decide) (by decide),
        opens.head_text_ne shown (.bracket ")") (by decide) (by decide), by simp⟩
    rw [Production.opens, Bool.eq_false_iff, ne_eq, List.contains_iff_mem]
    exact fun marked => marks _ marked rfl

end OpensExpression

namespace Grammar

open Production Attempt

variable {grammar : Grammar} [grammar.Arranged] {levels : Nat} {flags : Flags}
  {subject : Option Node} {pieces : List Piece}

/-- A single value does not begin with a piece that opens no operand. -/
theorem single_refuses (other : ∀ piece, pieces.head? = some piece → piece.opensOperand = false) :
    (grammar.reader (levels + 1)).Refuses .single none pieces := by
  apply reader_refuses
  intro production eligible
  rw [eligible_single] at eligible
  simp only [List.mem_cons, List.not_mem_nil, or_false] at eligible
  apply rejects_direct
  · rcases eligible with rfl | rfl | rfl | rfl | rfl | rfl <;> rfl
  · intro piece shown
    have closed := other piece shown
    simp only [Piece.opensOperand, Bool.or_eq_false_iff] at closed
    obtain ⟨⟨⟨⟨⟨noFloat, noInt⟩, noName⟩, noBracket⟩, noSign⟩, noStep⟩ := closed
    rcases eligible with rfl | rfl | rfl | rfl | rfl | rfl
    · exact noFloat
    · exact noInt
    · exact noName
    · exact noBracket
    · exact noSign
    · exact noStep

/-- An operand is rejected before a piece that begins none. -/
theorem rejects_readOperand
    (other : ∀ piece, pieces.head? = some piece → piece.opensOperand = false) :
    readOperand.Rejects (grammar.setting (levels + 1) flags subject) pieces :=
  (rejects_node (single_refuses other)).bind

/-- An expression does not begin with a piece that opens no operand. -/
theorem value_refuses (other : ∀ piece, pieces.head? = some piece → piece.opensOperand = false) :
    (grammar.reader (levels + 2)).Refuses .value none pieces := by
  apply reader_refuses
  intro production eligible
  rw [eligible_value] at eligible
  obtain rfl := List.mem_singleton.mp eligible
  exact (rejects_readOperand other).bind

/-- A rule rejects pieces that it cannot begin with, if enough levels are left to find that. -/
theorem rejects_of_opens {production : Production} (enough : production.lookahead ≤ levels)
    (other : ∀ piece, pieces.head? = some piece → production.opens piece = false) :
    production.build.Rejects (grammar.setting levels flags subject) pieces := by
  by_cases direct : production.lookahead = 0
  · exact rejects_direct direct other
  · cases production with
    | expression =>
      match levels, enough with
      | levels + 1, _ => exact (rejects_readOperand other).bind
    | propertyAssignment | expressionStatement =>
      match levels, enough with
      | levels + 2, _ => exact (rejects_node (value_refuses other)).bind
    | _ => exact absurd rfl direct

end Grammar

end ShaderSource
