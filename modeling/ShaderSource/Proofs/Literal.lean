import ShaderSource.Literal
import ShaderSource.Proofs.Grammar.ExpressionCompleteness
import ShaderSource.Proofs.Number.Fraction
import ShaderSource.Proofs.Tree.Printable

/-!
# Literals are expressions

The literal of a host value is the printed text of an expression: a number, a
number behind a minus sign, or a call of the constructor of a vector. So it
parses to this expression, and a literal in a tree is printed like the
expression in its place.
-/

namespace ShaderSource

open Lexeme

/-- The expression that a text parses to, if the whole text is one. -/
def parseExpression? (text : String) : Option Node :=
  match (tokenize text).tokens? with
  | .error _ => none
  | .ok tokens =>
    match Grammar.glsl.parseOne tokens 0 .value none with
    | .ok (some (node, after)) => if after.rest.isEmpty then some node else none
    | _ => none

/-- An expression is printed as a text, and it is nested within every limit that leaves it some
    more levels. -/
structure WrittenAs (depth : Nat) (text : String) (node : Node) : Prop where
  shaped : Shaped .expression node
  printed : node.render = text
  shallow : ∀ limit level, level + depth ≤ limit → node.Within limit level

namespace WrittenAs

variable {depth : Nat} {text : String} {node : Node}

/-- The text of an expression is read completely. -/
theorem isComplete (written : WrittenAs depth text node) : (tokenize text).isComplete = true := by
  obtain ⟨complete, _⟩ := (written.shaped.printable true).ofChars 0
  rw [← written.printed, Lexed.isComplete, Node.render, tokenize, complete]
  rfl

/-- The text of an expression parses to the expression. -/
theorem parse (written : WrittenAs depth text node) (bounded : depth ≤ deepestLevel) :
    parseExpression? text = some node := by
  have within : node.Within deepestLevel 0 := written.shallow deepestLevel 0 (by omega)
  obtain ⟨complete, shown⟩ := (written.shaped.printable true).ofChars 0
  have read : (tokenize text).tokens? = .ok (tokenize text).tokens := by
    rw [← written.printed]
    unfold Lexed.tokens? tokenize
    rw [Node.render, complete]
    rfl
  have split : (Place.ofTokens (tokenize text).tokens 0).pieces = node.pieces true ++ [] := by
    rw [List.append_nil, ← written.printed]
    exact shown
  have takes : Grammar.glsl.topReader.Takes .value none (node.pieces true) [] node :=
    written.shaped.readBack within rfl fun piece none => by simp at none
  obtain ⟨after, found, rest⟩ := takes _ split
  have ended : after.rest = [] := List.map_eq_nil_iff.mp rest
  have parsed : Grammar.glsl.parseOne (tokenize text).tokens 0 .value none =
      .ok (some (node, after)) := found
  unfold parseExpression?
  simp [read, parsed, ended]

end WrittenAs

section Numbers

/-- Digits do not begin with a sign, and neither does a point. -/
theorem keepApart_number {chars : List Char} (number : Binary64.numberText chars = true) :
    keepApart (String.ofList chars) = String.ofList chars := by
  unfold keepApart
  rw [String.toList_ofList]
  split
  case h_1 => exact absurd number (by simp [Binary64.numberText, integerText, floatText])
  case h_2 => exact absurd number (by simp [Binary64.numberText, integerText, floatText])
  case h_3 => rfl

/-- The kind of the number that a text writes. -/
def numberKind (chars : List Char) : NodeKind := if integerText chars then .int else .float

/-- Digits with a point write a float number. -/
theorem numberKind_point {chars : List Char} (point : floatText chars = true) :
    numberKind chars = .float := by
  unfold numberKind
  split
  case isTrue digits =>
    rw [integerText, Bool.and_eq_true] at digits
    have none : chars.dropWhile Char.isDigit = [] :=
      List.dropWhile_eq_nil_iff.mpr (List.all_eq_true.mp digits.2)
    simp [floatText, none] at point
  case isFalse => rfl

/-- Digits, with a point among them at most, are the text of a number. -/
theorem exists_number {chars : List Char} (number : Binary64.numberText chars = true) :
    ∃ node, Shaped .primary node ∧ node.kind = numberKind chars ∧
      node.render = String.ofList chars ∧ ∀ limit level, level ≤ limit → node.Within limit level := by
  rw [Binary64.numberText, Bool.or_eq_true] at number
  rcases number with whole | fraction
  · refine ⟨.int (String.ofList chars), .int ?_, ?_, rfl, fun limit level bound => bound⟩
    · rwa [String.toList_ofList]
    · rw [numberKind, if_pos whole, Node.kind]
  · refine ⟨.float (String.ofList chars), .float ?_, ?_, rfl, fun limit level bound => bound⟩
    · rwa [String.toList_ofList]
    · rw [numberKind_point fraction, Node.kind]

/-- A node is a number of a kind, or one behind a minus sign. -/
def Node.IsSigned (kind : NodeKind) (node : Node) : Prop :=
  node.kind = kind ∨ ∃ inner, node = .unary .minus inner ∧ inner.kind = kind

/-- The minus sign of a negative number. -/
def signText (negative : Bool) : List Char := if negative then ['-'] else []

/-- A number behind an optional minus sign is the text of an expression. -/
theorem exists_signed {chars : List Char} (number : Binary64.numberText chars = true)
    (negative : Bool) :
    ∃ node, WrittenAs 2 (String.ofList (signText negative ++ chars)) node ∧
      node.IsSigned (numberKind chars) := by
  obtain ⟨node, shaped, kind, printed, shallow⟩ := exists_number number
  cases negative with
  | false =>
    have bounded : ∀ limit level, level + 2 ≤ limit → node.Within limit level :=
      fun limit level bound => shallow limit level (by omega)
    exact ⟨node, ⟨.ofOperand (.ofPrimary shaped), printed, bounded⟩, .inl kind⟩
  | true =>
    refine ⟨.unary .minus node, ⟨.ofOperand (.unary (.ofPrimary shaped)), ?_, ?_⟩,
      .inr ⟨node, rfl, kind⟩⟩
    · have operand : node.print true = String.ofList chars := printed
      have sign : UnaryOp.minus.spelling = String.ofList (signText true) := by decide
      rw [Node.render, Node.print, operand, keepApart_number number, sign, String.ofList_append]
    · intro limit level bound
      exact ⟨by omega, shallow limit (level + 2) bound⟩

/-- A text is one of some texts of numbers, behind an optional minus sign. -/
def IsSignedText (accepts : List Char → Bool) (text : String) : Prop :=
  ∃ negative chars, accepts chars = true ∧ text = String.ofList (signText negative ++ chars)

/-- A signed text of one sort is one of every wider sort. -/
theorem IsSignedText.weaken {accepts others : List Char → Bool} {text : String}
    (signed : IsSignedText accepts text)
    (more : ∀ {chars}, accepts chars = true → others chars = true) : IsSignedText others text := by
  obtain ⟨negative, chars, accepted, rfl⟩ := signed
  exact ⟨negative, chars, more accepted, rfl⟩

/-- A whole number is written with its sign and its digits. -/
theorem signedText_toString (value : Int) : IsSignedText integerText (toString value) := by
  cases value with
  | ofNat magnitude =>
    exact ⟨false, Nat.toDigits 10 magnitude, Binary64.integerText_toDigits magnitude,
      Nat.repr_eq_ofList_toDigits⟩
  | negSucc magnitude =>
    refine ⟨true, Nat.toDigits 10 (magnitude + 1), Binary64.integerText_toDigits _, ?_⟩
    rw [String.ofList_append, ← Nat.repr_eq_ofList_toDigits]
    rfl

section Written

variable {number : Binary64} (bounded : number.isFinite = true)

include bounded

/-- A finite number has a mantissa and an exponent. -/
theorem exists_finite : ∃ negative mantissa exponent canonical,
    number = .finite negative mantissa exponent canonical := by
  cases number with
  | nan => exact Bool.noConfusion bounded
  | infinite => exact Bool.noConfusion bounded
  | finite negative mantissa exponent canonical =>
    exact ⟨negative, mantissa, exponent, canonical, rfl⟩

/-- A number without its fraction is written as a whole number. -/
theorem wholeLiteral_signed : IsSignedText integerText (wholeLiteral number) := by
  obtain ⟨negative, mantissa, exponent, canonical, rfl⟩ := exists_finite bounded
  exact signedText_toString _

/-- A number is written with the digits of its magnitude. -/
theorem render_signed : IsSignedText Binary64.numberText number.render := by
  obtain ⟨negative, mantissa, exponent, canonical, rfl⟩ := exists_finite bounded
  exact ⟨negative, _, Binary64.magnitudeText_number canonical, rfl⟩

/-- A number with a decimal point is written with it: a whole number has no other point, and any
    other number has one of its own. -/
theorem pointLiteral_signed : IsSignedText floatText (pointLiteral number) := by
  obtain ⟨negative, mantissa, exponent, canonical, rfl⟩ := exists_finite bounded
  unfold pointLiteral
  dsimp only
  split
  case isTrue whole =>
    have digits := Binary64.magnitudeText_whole canonical whole
    rw [integerText, Bool.and_eq_true] at digits
    refine ⟨negative, _, floatText_point digits.2 (by decide : integerText ['0'] = true), ?_⟩
    rw [← List.append_assoc, String.ofList_append]
    rfl
  case isFalse fraction =>
    rw [Bool.not_eq_true] at fraction
    exact ⟨negative, _, Binary64.magnitudeText_fraction canonical fraction, rfl⟩

end Written

/-- Digits behind an optional minus sign are a whole number. -/
theorem exists_whole {text : String} (signed : IsSignedText integerText text) :
    ∃ node, WrittenAs 2 text node ∧ node.IsSigned .int := by
  obtain ⟨negative, chars, whole, rfl⟩ := signed
  have found := exists_signed (Binary64.numberText_of_integer whole) negative
  rwa [numberKind, if_pos whole] at found

/-- Digits with a point behind an optional minus sign are a number with a decimal point. -/
theorem exists_point {text : String} (signed : IsSignedText floatText text) :
    ∃ node, WrittenAs 2 text node ∧ node.IsSigned .float := by
  obtain ⟨negative, chars, point, rfl⟩ := signed
  have found := exists_signed (Binary64.numberText_of_float point) negative
  rwa [numberKind_point point] at found

/-- The text of a number is a whole number or one with a decimal point. -/
theorem exists_either {text : String} (signed : IsSignedText Binary64.numberText text) :
    ∃ node, WrittenAs 2 text node ∧ (node.IsSigned .int ∨ node.IsSigned .float) := by
  obtain ⟨negative, chars, number, rfl⟩ := signed
  rw [Binary64.numberText, Bool.or_eq_true] at number
  rcases number with whole | point
  · obtain ⟨node, written, form⟩ := exists_whole ⟨negative, chars, whole, rfl⟩
    exact ⟨node, written, .inl form⟩
  · obtain ⟨node, written, form⟩ := exists_point ⟨negative, chars, point, rfl⟩
    exact ⟨node, written, .inr form⟩

end Numbers

section Vectors

/-- Texts of expressions are the texts of a list of expressions. -/
theorem exists_components {depth : Nat} {holds : Node → Prop} {texts : List String}
    (each : ∀ text ∈ texts, ∃ node, WrittenAs depth text node ∧ holds node) :
    ∃ nodes : List Node, nodes.map Node.render = texts ∧
      ∀ node ∈ nodes, WrittenAs depth node.render node ∧ holds node := by
  induction texts with
  | nil => exact ⟨[], rfl, by simp⟩
  | cons text texts inductionHypothesis =>
    obtain ⟨node, written, held⟩ := each text (by simp)
    obtain ⟨nodes, printed, others⟩ :=
      inductionHypothesis fun other member => each other (by simp [member])
    refine ⟨node :: nodes, by rw [List.map_cons, written.printed, printed], ?_⟩
    intro other member
    rcases List.mem_cons.mp member with rfl | member
    · exact ⟨written.printed.symm ▸ written, held⟩
    · exact others other member

/-- A word with digits behind it is a name, unless a reserved word begins with it. -/
theorem isNameText_sized {stem : String} (begins : identifierText stem.toList = true)
    (free : reservedWords.all (fun word => !stem.toList.isPrefixOf word.toList) = true)
    (size : Nat) : isNameText (stem ++ toString size) = true := by
  have digits : (toString size).toList = Nat.toDigits 10 size := by
    rw [Nat.toString_eq_repr, Nat.repr_eq_ofList_toDigits, String.toList_ofList]
  have continued : (Nat.toDigits 10 size).all continuesIdentifier = true := by
    have all := List.all_eq_true.mp (Binary64.all_isDigit_toDigits size)
    exact List.all_eq_true.mpr fun char member => by simp [continuesIdentifier, all char member]
  have identifier : identifierText (stem ++ toString size).toList = true := by
    rw [String.toList_append, digits]
    cases front : stem.toList with
    | nil => simp [front, identifierText] at begins
    | cons first rest =>
      rw [front, identifierText, Bool.and_eq_true] at begins
      rw [List.cons_append, identifierText, List.all_append, begins.1, begins.2, continued]
      rfl
  have unreserved : isReserved (stem ++ toString size) = false := by
    rw [isReserved, Bool.eq_false_iff]
    intro reserved
    have member := List.contains_iff_mem.mp reserved
    have front : stem.toList.isPrefixOf (stem ++ toString size).toList = true := by
      rw [String.toList_append]
      exact List.isPrefixOf_iff_prefix.mpr (List.prefix_append _ _)
    have apart := List.all_eq_true.mp free _ member
    rw [front] at apart
    exact Bool.noConfusion apart
  rw [isNameText, identifier, unreserved]
  rfl

/-- The name of a literal type can be the type of a declaration. -/
theorem LiteralType.isNameText_name (ty : LiteralType) : isNameText ty.name = true := by
  cases ty with
  | int => decide
  | float => decide
  | vec size =>
    have begins : identifierText "vec".toList = true := by decide
    exact isNameText_sized begins (by decide) size
  | ivec size =>
    have begins : identifierText "ivec".toList = true := by decide
    exact isNameText_sized begins (by decide) size

/-- The call of a constructor is the text of a call, two levels deeper than its components. -/
theorem exists_constructorCall (ty : LiteralType) {holds : Node → Prop} {texts : List String}
    (each : ∀ text ∈ texts, ∃ node, WrittenAs 2 text node ∧ holds node) :
    ∃ nodes, WrittenAs 4 (constructorCall ty texts) (.call (.reference ty.name) nodes) ∧
      nodes.length = texts.length ∧ ∀ node ∈ nodes, holds node := by
  obtain ⟨nodes, printed, components⟩ := exists_components each
  refine ⟨nodes, ⟨?_, ?_, ?_⟩, ?_, fun node member => (components node member).2⟩
  · have called : Shaped .primary (.reference ty.name) := .reference ty.isNameText_name
    exact .ofOperand (.ofPrimary
      (.call called fun node member => (components node member).1.shaped))
  · rw [Node.render, Node.print, Node.printList_eq_map, printed]
    rfl
  · intro limit level bound
    simp only [Node.Within, Node.listWithin_iff]
    refine ⟨by omega, by omega, fun node member => ?_⟩
    exact (components node member).1.shallow limit (level + 2) (by omega)
  · rw [← printed, List.length_map]

end Vectors

/-- What is found in a result that was changed. -/
theorem exists_of_map_ok {ε α β : Type} {result : Except ε α} {change : α → β} {value : β}
    (mapped : result.map change = .ok value) :
    ∃ found, result = .ok found ∧ change found = value := by
  cases result with
  | error => simp [Except.map] at mapped
  | ok found => exact ⟨found, rfl, Except.ok.inj mapped⟩

/-- A scalar is accepted exactly if it is one and finite. -/
theorem finiteScalar_eq_ok {ty : LiteralType} {value : HostValue} {number : Binary64} :
    finiteScalar ty value = .ok number ↔ value = .scalar number ∧ number.isFinite = true := by
  cases value with
  | vector => simp [finiteScalar]
  | scalar given =>
    unfold finiteScalar
    dsimp only
    split
    case isTrue bounded =>
      constructor
      · intro same
        obtain rfl := Except.ok.inj same
        exact ⟨rfl, bounded⟩
      · rintro ⟨same, _⟩
        rw [HostValue.scalar.inj same]
    case isFalse unbounded =>
      constructor
      · intro same
        simp at same
      · rintro ⟨same, bounded⟩
        obtain rfl := HostValue.scalar.inj same
        exact absurd bounded unbounded

/-- A vector is accepted exactly if it has its size and all its components are finite. -/
theorem finiteComponents_eq_ok {ty : LiteralType} {value : HostValue} {numbers : List Binary64} :
    finiteComponents ty value = .ok numbers ↔
      value = .vector numbers ∧ numbers.length = ty.size ∧
        ∀ number ∈ numbers, number.isFinite = true := by
  cases value with
  | scalar => simp [finiteComponents]
  | vector given =>
    unfold finiteComponents
    dsimp only
    by_cases sized : given.length = ty.size
    · rw [if_pos sized]
      cases found : given.find? fun number => !number.isFinite with
      | some number =>
        have unbounded := List.find?_some found
        have member := List.mem_of_find?_eq_some found
        constructor
        · intro same
          simp at same
        · rintro ⟨same, _, bounded⟩
          obtain rfl := HostValue.vector.inj same
          simp [bounded number member] at unbounded
      | none =>
        have bounded : ∀ number ∈ given, number.isFinite = true := by simpa using found
        constructor
        · intro same
          obtain rfl := Except.ok.inj same
          exact ⟨rfl, sized, bounded⟩
        · rintro ⟨same, _⟩
          rw [HostValue.vector.inj same]
    · rw [if_neg sized]
      constructor
      · intro same
        simp at same
      · rintro ⟨same, count, _⟩
        obtain rfl := HostValue.vector.inj same
        exact absurd count sized

/-- A node is a literal of a type. The numbers of a vector are the arguments of its constructor. -/
def LiteralType.IsLiteral : LiteralType → Node → Prop
  | .int, node => node.IsSigned .int
  | .float, node => node.IsSigned .float
  | .vec size, node => ∃ args, node = .call (.reference (LiteralType.vec size).name) args ∧
      args.length = size ∧ ∀ arg ∈ args, arg.IsSigned .int ∨ arg.IsSigned .float
  | .ivec size, node => ∃ args, node = .call (.reference (LiteralType.ivec size).name) args ∧
      args.length = size ∧ ∀ arg ∈ args, arg.IsSigned .int

/-- How the literals of a type are written: as a number, or as the call of a constructor with
    numbers as its components. -/
inductive IsLiteralText : LiteralType → String → Prop
  | int {text : String} (signed : IsSignedText integerText text) : IsLiteralText .int text
  | float {text : String} (signed : IsSignedText floatText text) : IsLiteralText .float text
  | vec (components : List String)
      (each : ∀ component ∈ components, IsSignedText Binary64.numberText component) :
      IsLiteralText (.vec components.length) (constructorCall (.vec components.length) components)
  | ivec (components : List String)
      (each : ∀ component ∈ components, IsSignedText integerText component) :
      IsLiteralText (.ivec components.length) (constructorCall (.ivec components.length) components)

/-- The numbers of a vector are written one by one. -/
theorem forall_components {accepts : List Char → Bool} {numbers : List Binary64}
    {write : Binary64 → String} (bounded : ∀ number ∈ numbers, number.isFinite = true)
    (written : ∀ {number : Binary64}, number.isFinite = true →
      IsSignedText accepts (write number)) :
    ∀ component ∈ numbers.map write, IsSignedText accepts component := by
  intro component member
  obtain ⟨number, inside, rfl⟩ := List.mem_map.mp member
  exact written (bounded number inside)

/-- What is rendered is the text of a literal of its type. -/
theorem renderLiteral_text {ty : LiteralType} {value : HostValue} {text : String}
    (rendered : renderLiteral value ty = .ok text) : IsLiteralText ty text := by
  cases ty with
  | int =>
    obtain ⟨number, found, rfl⟩ := exists_of_map_ok rendered
    exact .int (wholeLiteral_signed (finiteScalar_eq_ok.mp found).2)
  | float =>
    obtain ⟨number, found, rfl⟩ := exists_of_map_ok rendered
    exact .float (pointLiteral_signed (finiteScalar_eq_ok.mp found).2)
  | vec size =>
    obtain ⟨numbers, found, rfl⟩ := exists_of_map_ok rendered
    obtain ⟨_, count, bounded⟩ := finiteComponents_eq_ok.mp found
    obtain rfl : (numbers.map Binary64.render).length = size := by rwa [List.length_map]
    exact .vec _ (forall_components bounded render_signed)
  | ivec size =>
    obtain ⟨numbers, found, rfl⟩ := exists_of_map_ok rendered
    obtain ⟨_, count, bounded⟩ := finiteComponents_eq_ok.mp found
    obtain rfl : (numbers.map wholeLiteral).length = size := by rwa [List.length_map]
    exact .ivec _ (forall_components bounded wholeLiteral_signed)

/-- A literal is the text of an expression, which is a literal of its type. -/
theorem exists_renderLiteral {ty : LiteralType} {value : HostValue} {text : String}
    (rendered : renderLiteral value ty = .ok text) :
    ∃ node, WrittenAs 4 text node ∧ ty.IsLiteral node := by
  have deeper : ∀ {node}, WrittenAs 2 text node → WrittenAs 4 text node :=
    fun written => ⟨written.shaped, written.printed,
      fun limit level bound => written.shallow limit level (by omega)⟩
  cases renderLiteral_text rendered with
  | int signed =>
    obtain ⟨node, written, form⟩ := exists_whole signed
    exact ⟨node, deeper written, form⟩
  | float signed =>
    obtain ⟨node, written, form⟩ := exists_point signed
    exact ⟨node, deeper written, form⟩
  | vec components each =>
    obtain ⟨args, written, counted, signed⟩ := exists_constructorCall (.vec components.length)
      fun component member => exists_either (each component member)
    exact ⟨_, written, args, rfl, counted, signed⟩
  | ivec components each =>
    obtain ⟨args, written, counted, signed⟩ := exists_constructorCall (.ivec components.length)
      fun component member => exists_whole (each component member)
    exact ⟨_, written, args, rfl, counted, signed⟩

end ShaderSource
