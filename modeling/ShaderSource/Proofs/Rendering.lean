import ShaderSource.Proofs.Literal
import ShaderSource.Proofs.RoundTrip

/-!
# Which values have literals, and what they are

A value has a literal of a type if it has the shape of the type and all its
numbers are finite. A wrong shape is reported before any number is, and of the
numbers the first one that is not finite. A literal can be given to a declaration:
the declaration is read back with an expression that is printed as the literal and
has the form that belongs to the type.
-/

namespace ShaderSource

namespace HostValue

/-- The numbers of a value. -/
def numbers : HostValue → List Binary64
  | scalar number => [number]
  | vector numbers => numbers

/-- A value has the shape of a type: one number for a scalar type, and as many as there are
    components for a vector type. -/
inductive Fits : LiteralType → HostValue → Prop
  | int (number : Binary64) : Fits .int (.scalar number)
  | float (number : Binary64) : Fits .float (.scalar number)
  | vec (numbers : List Binary64) : Fits (.vec numbers.length) (.vector numbers)
  | ivec (numbers : List Binary64) : Fits (.ivec numbers.length) (.vector numbers)

/-- The error of a value that has not the shape of a type. -/
def shapeError (ty : LiteralType) : HostValue → LiteralError
  | scalar _ => .expectedVector ty
  | vector numbers =>
    match ty with
    | .int | .float => .expectedScalar ty numbers.length
    | .vec _ | .ivec _ => .componentCount ty numbers.length

end HostValue

section Result

variable {value : HostValue} {ty : LiteralType}

/-- The number of components is checked before they are. -/
theorem finiteComponents_of_length {numbers : List Binary64} (other : numbers.length ≠ ty.size) :
    finiteComponents ty (.vector numbers) = .error (.componentCount ty numbers.length) := by
  rw [finiteComponents, if_neg other]

/-- A value of another shape is refused for its shape. -/
theorem renderLiteral_of_not_fits (misfit : ¬ value.Fits ty) :
    renderLiteral value ty = .error (value.shapeError ty) := by
  cases value with
  | scalar number =>
    cases ty with
    | int => exact absurd (.int number) misfit
    | float => exact absurd (.float number) misfit
    | vec size => rfl
    | ivec size => rfl
  | vector numbers =>
    cases ty with
    | int => rfl
    | float => rfl
    | vec size =>
      have other : numbers.length ≠ (LiteralType.vec size).size := by
        rintro rfl
        exact misfit (.vec numbers)
      rw [renderLiteral, finiteComponents_of_length other]
      rfl
    | ivec size =>
      have other : numbers.length ≠ (LiteralType.ivec size).size := by
        rintro rfl
        exact misfit (.ivec numbers)
      rw [renderLiteral, finiteComponents_of_length other]
      rfl

/-- A value of the right shape is refused for its first number that is not finite. -/
theorem renderLiteral_of_found (fits : value.Fits ty) {number : Binary64}
    (found : value.numbers.find? (fun number => !number.isFinite) = some number) :
    renderLiteral value ty = .error (.notFinite number) := by
  cases fits with
  | int given | float given =>
    obtain rfl : number = given := List.mem_singleton.mp (List.mem_of_find?_eq_some found)
    have unbounded : number.isFinite = false := by simpa using List.find?_some found
    simp [renderLiteral, finiteScalar, unbounded, Except.map]
  | vec given | ivec given =>
    have first : given.find? (fun number => !number.isFinite) = some number := found
    simp [renderLiteral, finiteComponents, LiteralType.size, first, Except.map]

/-- A value of the right shape with finite numbers only has a literal. -/
theorem exists_literal (fits : value.Fits ty)
    (bounded : ∀ number ∈ value.numbers, number.isFinite = true) :
    ∃ text, renderLiteral value ty = .ok text := by
  cases fits with
  | int given | float given =>
    have found : ∀ ty, finiteScalar ty (.scalar given) = .ok given := fun ty =>
      finiteScalar_eq_ok.mpr ⟨rfl, bounded given List.mem_cons_self⟩
    rw [renderLiteral, found]
    exact ⟨_, rfl⟩
  | vec given | ivec given =>
    have found : ∀ ty : LiteralType, given.length = ty.size →
        finiteComponents ty (.vector given) = .ok given := fun ty sized =>
      finiteComponents_eq_ok.mpr ⟨rfl, sized, bounded⟩
    rw [renderLiteral, found _ rfl]
    exact ⟨_, rfl⟩

/-- A value has a literal exactly if it has the right shape and finite numbers only. -/
theorem exists_literal_iff :
    (∃ text, renderLiteral value ty = .ok text) ↔
      value.Fits ty ∧ ∀ number ∈ value.numbers, number.isFinite = true := by
  constructor
  · rintro ⟨text, rendered⟩
    have fits : value.Fits ty := by
      by_contra misfit
      rw [renderLiteral_of_not_fits misfit] at rendered
      simp at rendered
    refine ⟨fits, fun number member => ?_⟩
    cases found : value.numbers.find? fun number => !number.isFinite with
    | none => simpa using List.find?_eq_none.mp found number member
    | some other =>
      rw [renderLiteral_of_found fits found] at rendered
      simp at rendered
  · rintro ⟨fits, bounded⟩
    exact exists_literal fits bounded

/-- A value has no literal for its shape, or for its first number that is not finite if it has the
    right shape. -/
theorem renderLiteral_eq_error_iff {error : LiteralError} :
    renderLiteral value ty = .error error ↔
      (¬ value.Fits ty ∧ error = value.shapeError ty) ∨
        (value.Fits ty ∧ ∃ before number after, value.numbers = before ++ number :: after ∧
          (∀ earlier ∈ before, earlier.isFinite = true) ∧ number.isFinite = false ∧
            error = .notFinite number) := by
  by_cases fits : value.Fits ty
  · simp only [fits, not_true_eq_false, false_and, false_or, true_and]
    constructor
    · intro failed
      cases found : value.numbers.find? fun number => !number.isFinite with
      | none =>
        have bounded : ∀ number ∈ value.numbers, number.isFinite = true := by simpa using found
        obtain ⟨text, rendered⟩ := exists_literal fits bounded
        rw [rendered] at failed
        simp at failed
      | some number =>
        rw [renderLiteral_of_found fits found] at failed
        obtain ⟨unbounded, before, after, split, finite⟩ := List.find?_eq_some_iff_append.mp found
        exact ⟨before, number, after, split, by simpa using finite, by simpa using unbounded,
          (Except.error.inj failed).symm⟩
    · rintro ⟨before, number, after, split, finite, unbounded, rfl⟩
      refine renderLiteral_of_found fits (List.find?_eq_some_iff_append.mpr ?_)
      exact ⟨by simp [unbounded], before, after, split, by simpa using finite⟩
  · simp only [fits, not_false_eq_true, true_and, false_and, or_false]
    rw [renderLiteral_of_not_fits fits]
    constructor
    · intro same
      exact (Except.error.inj same).symm
    · rintro rfl
      rfl

end Result

namespace WrittenAs

variable {depth : Nat} {text : String} {node : Node}

/-- The text of an expression can be given to a declaration, with a qualifier or without. -/
theorem compile_declaration (written : WrittenAs depth text node) (bounded : depth < deepestLevel)
    (qualifier : Option Qualifier) {ty name : String} (typed : isNameText ty = true)
    (named : isNameText name = true) :
    compile (Qualifier.text qualifier ++ ty ++ " " ++ name ++ " = " ++ text ++ ";") =
      .ok [.declaration qualifier ty name (some node)] := by
  have value : ∀ given, some node = some given → Shaped .expression given := by
    rintro given ⟨⟩
    exact written.shaped
  have shaped : ShapedProgram [.declaration qualifier ty name (some node)] := by
    intro top member
    obtain rfl := List.mem_singleton.mp member
    cases qualifier with
    | none => exact .ofStatement (.ofClause (.declaration typed named value))
    | some qualifier => exact .qualified typed named value
  have nested : NestedProgram deepestLevel [.declaration qualifier ty name (some node)] := by
    refine ⟨by decide, Node.listWithin_iff.mpr fun top member => ?_⟩
    obtain rfl := List.mem_singleton.mp member
    exact written.shallow deepestLevel 1 (by omega)
  have inner : node.print true = text := written.printed
  have source : renderProgram [.declaration qualifier ty name (some node)] =
      Qualifier.text qualifier ++ ty ++ " " ++ name ++ " = " ++ text ++ ";" := by
    rw [renderProgram, List.map_singleton, String.intercalate_singleton, Node.render,
      Node.print_declaration, Node.initialText, inner, statementEnd, if_pos rfl]
    simp only [String.append_assoc]
  rw [← source]
  exact shaped.compile_printed nested

end WrittenAs

/-- Which values have literals of a type, how the others are refused, and what the literals are:
    they are read completely, and a declaration that is given one is read back with an expression
    in the form of the type that is printed as the literal. -/
theorem renderLiteral_exact (value : HostValue) (ty : LiteralType) :
    ((∃ text, renderLiteral value ty = .ok text) ↔
      value.Fits ty ∧ ∀ number ∈ value.numbers, number.isFinite = true) ∧
    (∀ error, renderLiteral value ty = .error error ↔
      (¬ value.Fits ty ∧ error = value.shapeError ty) ∨
        (value.Fits ty ∧ ∃ before number after, value.numbers = before ++ number :: after ∧
          (∀ earlier ∈ before, earlier.isFinite = true) ∧ number.isFinite = false ∧
            error = .notFinite number)) ∧
    (∀ text, renderLiteral value ty = .ok text →
      (tokenize text).isComplete = true ∧
        ∃ node, ty.IsLiteral node ∧ node.render = text ∧
          ∀ qualifier declared name, isNameText declared = true → isNameText name = true →
            compile (Qualifier.text qualifier ++ declared ++ " " ++ name ++ " = " ++ text ++ ";") =
              .ok [.declaration qualifier declared name (some node)]) := by
  refine ⟨exists_literal_iff, fun error => renderLiteral_eq_error_iff, fun text rendered => ?_⟩
  obtain ⟨node, written, form⟩ := exists_renderLiteral rendered
  refine ⟨written.isComplete, node, form, written.printed, ?_⟩
  intro qualifier declared name typed named
  exact written.compile_declaration (by decide) qualifier typed named

end ShaderSource
