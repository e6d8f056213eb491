import ShaderSource.Proofs.Processor
import ShaderSource.Proofs.Registration

/-!
# Uniforms with the same key

A key is a name without the mark of uniforms. So two names have the same key only if
one of them is the marked form of the other, and the other carries no mark of its own:
the key of `uUX` is `uX`, but `uX` is a marked name as well and has the key `x`. Among
names that all carry the mark, or of which none does, each has a key of its own, and a
program that names its uniforms in one of these ways finds all of them under their keys.
-/

namespace ShaderSource

section Letters

variable {letter : Char}

/-- A property of all characters of the ASCII range is seen one by one. -/
theorem forall_ascii (holds : Char → Prop) (each : ∀ code < 128, holds (Char.ofNat code))
    {char : Char} (ascii : char.toNat < 128) : holds char := by
  rw [← Char.ofNat_toNat char]
  exact each char.toNat ascii

/-- The characters of identifiers are ASCII characters. -/
theorem ascii_of_continuesIdentifier {char : Char}
    (continues : Lexeme.continuesIdentifier char = true) : char.toNat < 128 := by
  simp only [Lexeme.continuesIdentifier, Bool.or_eq_true, Lexeme.beginsIdentifier_iff,
    Lexeme.isDigit_iff] at continues
  omega

/-- Capital letters have the codes from 65 to 90. -/
theorem isUpper_iff : letter.isUpper = true ↔ 65 ≤ letter.toNat ∧ letter.toNat ≤ 90 := by
  have range : letter.isUpper = decide (letter.val ≥ 65 ∧ letter.val ≤ 90) := rfl
  simp only [range, decide_eq_true_eq, UInt32.le_iff_toNat_le, ge_iff_le]
  rfl

/-- Capital letters are ASCII characters. -/
theorem ascii_of_isUpper (capital : letter.isUpper = true) : letter.toNat < 128 := by
  rw [isUpper_iff] at capital
  omega

/-- All ranges of capital letters but the first lie beyond the ASCII range. -/
theorem capitalRange?_of_ascii {char : Char} (ascii : char.toNat < 128) :
    Text.capitalRange? char = if char.isUpper then some (0x41, 0x5A, 1, 32) else none := by
  have beyond : ∀ range ∈ Text.capitalRanges.tail, 128 ≤ range.1 := by decide +kernel
  have front : Text.capitalRanges = (0x41, 0x5A, 1, 32) :: Text.capitalRanges.tail := rfl
  rw [Text.capitalRange?, front]
  by_cases capital : char.isUpper = true
  · rw [if_pos capital, List.find?_cons_of_pos]
    simpa [Nat.mod_one] using isUpper_iff.mp capital
  · rw [if_neg capital, List.find?_cons_of_neg, List.find?_eq_none]
    · intro range member inside
      have first := beyond range member
      simp only [Bool.and_eq_true, decide_eq_true_eq] at inside
      omega
    · simpa [Nat.mod_one, isUpper_iff] using capital

/-- The capital letters of the ASCII range are those from A to Z. -/
theorem isCapital_of_ascii {char : Char} (ascii : char.toNat < 128) :
    Text.isCapital char = char.isUpper := by
  rw [Text.isCapital, capitalRange?_of_ascii ascii]
  cases char.isUpper <;> rfl

/-- The small form of a capital ASCII letter is one letter. -/
theorem smallForm_of_isUpper (capital : letter.isUpper = true) :
    Text.smallForm letter = [letter.toLower] := by
  have ascii := ascii_of_isUpper capital
  have single : letter ≠ '\u0130' := by
    rintro rfl
    exact absurd ascii (by decide)
  have small : Char.ofNat (letter.toNat + (32 : Int)).toNat = letter.toLower :=
    forall_ascii (fun letter => letter.isUpper = true →
      Char.ofNat (letter.toNat + (32 : Int)).toNat = letter.toLower) (by decide +kernel) ascii capital
  rw [Text.smallForm, if_neg single, capitalRange?_of_ascii ascii, if_pos capital]
  exact congrArg ([·]) small

/-- A capital letter is known from its small one. -/
theorem toUpper_toLower (capital : letter.isUpper = true) : letter.toLower.toUpper = letter :=
  forall_ascii (fun letter => letter.isUpper = true → letter.toLower.toUpper = letter)
    (by decide +kernel) (ascii_of_isUpper capital) capital

/-- The small form of a capital letter can begin an identifier. -/
theorem beginsIdentifier_toLower (capital : letter.isUpper = true) :
    Lexeme.beginsIdentifier letter.toLower = true :=
  forall_ascii
    (fun letter => letter.isUpper = true → Lexeme.beginsIdentifier letter.toLower = true)
    (by decide +kernel) (ascii_of_isUpper capital) capital

end Letters

/-- A text that can be read as a name. -/
def IsIdentifier (name : String) : Prop := Lexeme.identifierText name.toList = true

/-- Names are identifiers. -/
theorem IsIdentifier.of_isNameText {name : String} (named : isNameText name = true) :
    IsIdentifier name := by
  rw [isNameText, Bool.and_eq_true] at named
  exact named.1

/-- A name carries the mark of uniforms, a `u` before a capital letter. -/
def IsMarked (name : String) : Prop :=
  ∃ letter rest, letter.isUpper = true ∧ name = String.ofList ('u' :: letter :: rest)

/-- A name is the marked form of a plain one: behind the mark the first letter of the plain
    name is a capital one. -/
def MarkedForm (plain marked : String) : Prop :=
  ∃ letter rest, letter.isUpper = true ∧ plain = String.ofList (letter.toLower :: rest) ∧
    marked = String.ofList ('u' :: letter :: rest)

section Key

variable {plain marked first second : String}

/-- The key of a marked name is the plain name. -/
theorem MarkedForm.uniformKey_eq (form : MarkedForm plain marked) : uniformKey marked = plain := by
  obtain ⟨letter, rest, capital, rfl, rfl⟩ := form
  have known : Text.isCapital letter = true := by
    rwa [isCapital_of_ascii (ascii_of_isUpper capital)]
  simp only [uniformKey, String.toList_ofList, known, if_true, smallForm_of_isUpper capital,
    List.singleton_append]

/-- A marked name is the marked form of its key. -/
theorem IsMarked.markedForm (carries : IsMarked marked) : MarkedForm (uniformKey marked) marked := by
  obtain ⟨letter, rest, capital, rfl⟩ := carries
  have form : MarkedForm (String.ofList (letter.toLower :: rest))
      (String.ofList ('u' :: letter :: rest)) := ⟨letter, rest, capital, rfl, rfl⟩
  rwa [form.uniformKey_eq]

/-- A marked form carries the mark. -/
theorem MarkedForm.isMarked (form : MarkedForm plain marked) : IsMarked marked := by
  obtain ⟨letter, rest, capital, _, rfl⟩ := form
  exact ⟨letter, rest, capital, rfl⟩

/-- A plain name has one marked form: its first letter decodes the capital one. -/
theorem MarkedForm.unique (one : MarkedForm plain first) (other : MarkedForm plain second) :
    first = second := by
  obtain ⟨letter, rest, capital, rfl, rfl⟩ := one
  obtain ⟨letter', rest', capital', same, rfl⟩ := other
  obtain ⟨small, rfl⟩ := List.cons.inj (String.ofList_inj.mp same)
  rw [← toUpper_toLower capital, small, toUpper_toLower capital']

/-- A name without the mark is its own key. -/
theorem uniformKey_of_unmarked (named : IsIdentifier plain) (unmarked : ¬ IsMarked plain) :
    uniformKey plain = plain := by
  unfold uniformKey
  split
  case h_1 letter rest shown =>
    have continues : Lexeme.continuesIdentifier letter = true := by
      simp only [IsIdentifier, shown, Lexeme.identifierText, List.all_cons, Bool.and_eq_true]
        at named
      exact named.2.1
    rw [isCapital_of_ascii (ascii_of_continuesIdentifier continues)]
    refine if_neg fun capital => unmarked ⟨letter, rest, capital, ?_⟩
    rw [← shown, String.ofList_toList]
  case h_2 => rfl

/-- The key of an identifier is an identifier. -/
theorem IsIdentifier.uniformKey (named : IsIdentifier first) : IsIdentifier (uniformKey first) := by
  by_cases carries : IsMarked first
  · obtain ⟨letter, rest, capital, key, rfl⟩ := carries.markedForm
    rw [key]
    simp only [IsIdentifier, String.toList_ofList, Lexeme.identifierText, List.all_cons,
      Bool.and_eq_true] at named ⊢
    exact ⟨beginsIdentifier_toLower capital, named.2.2⟩
  · rwa [uniformKey_of_unmarked named carries]

/-- Two names that both carry the mark, or of which none does, have different keys. -/
theorem eq_of_uniformKey (firstNamed : IsIdentifier first) (secondNamed : IsIdentifier second)
    (alike : IsMarked first ↔ IsMarked second) (same : uniformKey first = uniformKey second) :
    first = second := by
  by_cases carries : IsMarked first
  · have form := (alike.mp carries).markedForm
    exact carries.markedForm.unique (same ▸ form)
  · rwa [uniformKey_of_unmarked firstNamed carries,
      uniformKey_of_unmarked secondNamed fun other => carries (alike.mpr other)] at same

/-- A marked name has the key of a name without the mark if it is its marked form. -/
theorem uniformKey_eq_iff_markedForm (carries : IsMarked marked) (named : IsIdentifier plain)
    (unmarked : ¬ IsMarked plain) : uniformKey marked = uniformKey plain ↔ MarkedForm plain marked := by
  rw [uniformKey_of_unmarked named unmarked]
  constructor
  · rintro rfl
    exact carries.markedForm
  · exact MarkedForm.uniformKey_eq

/-- Different names have the same key if one is the marked form of the other and the other does
    not carry the mark. -/
theorem uniformKey_eq_iff (firstNamed : IsIdentifier first) (secondNamed : IsIdentifier second)
    (different : first ≠ second) :
    uniformKey first = uniformKey second ↔
      (MarkedForm second first ∧ ¬ IsMarked second) ∨
        (MarkedForm first second ∧ ¬ IsMarked first) := by
  have alone : (IsMarked first ↔ IsMarked second) → uniformKey first ≠ uniformKey second :=
    fun alike same => different (eq_of_uniformKey firstNamed secondNamed alike same)
  by_cases carries : IsMarked first <;> by_cases carries' : IsMarked second
  · simp [alone (by simp [carries, carries']), carries, carries']
  · simp [uniformKey_eq_iff_markedForm carries secondNamed carries', carries, carries']
  · rw [eq_comm, uniformKey_eq_iff_markedForm carries' firstNamed carries]
    simp [carries, carries']
  · have noForm : ¬ MarkedForm second first := fun form => carries form.isMarked
    have noForm' : ¬ MarkedForm first second := fun form => carries' form.isMarked
    simp [alone (by simp [carries, carries']), noForm, noForm']

end Key

section Programs

variable {nodes : List Node}

/-- A property of the names of all uniforms that are declared anywhere in some trees. -/
def EveryUniform (nodes : List Node) (holds : String → Prop) : Prop :=
  ∀ path ty name value, Stands nodes path (.declaration (some .uniform) ty name value) →
    holds name

/-- What stands anywhere in a program has a shape. -/
theorem Reached.shaped {exchange : Node → Option Node} {path : List Nat} {node : Node}
    (reached : Reached exchange nodes path node)
    (each : ∀ node ∈ nodes, ∃ category, Shaped category node) :
    ∃ category, Shaped category node := by
  induction reached with
  | top stands => exact each _ (List.mem_of_getElem? stands)
  | inside stands _ _ inductionHypothesis =>
    obtain ⟨_, shaped⟩ := each _ (List.mem_of_getElem? stands)
    refine inductionHypothesis fun child member => ?_
    obtain ⟨inner, _, found⟩ := shaped.child child member
    exact ⟨inner, found⟩

/-- The uniforms of a program are named by identifiers. -/
theorem ShapedProgram.everyUniform (shaped : ShapedProgram nodes) :
    EveryUniform nodes IsIdentifier := by
  intro path ty name value stands
  obtain ⟨_, found⟩ := Reached.shaped stands fun node member => ⟨.top, shaped node member⟩
  exact .of_isNameText (found.declared rfl).2.1

/-- Where no two uniforms have the same key, each is found under its key. The last one with a
    key has the same name as any other. -/
theorem EveryUniform.find? (named : EveryUniform nodes IsIdentifier)
    (alike : EveryUniform nodes IsMarked ∨ EveryUniform nodes fun name => ¬ IsMarked name)
    (table : UniformTable) :
    EveryUniform nodes fun name => ∃ ty, LastUniform nodes (uniformKey name) ⟨name, ty⟩ ∧
      (registerUniforms nodes table).2.find? (uniformKey name) = some ⟨name, ty⟩ := by
  intro path ty name value stands
  have registered := find?_registerUniforms nodes table (uniformKey name)
  cases found : (nodes.flatMap Node.subtrees).reverse.findSome? (uniformAt? (uniformKey name)) with
  | none => exact absurd rfl (findSome?_uniformAt?_eq_none.mp found path ty name value stands)
  | some binding =>
    obtain ⟨source, last⟩ := binding
    have counts : LastUniform nodes (uniformKey name) ⟨source, last⟩ :=
      findSome?_uniformAt?_eq_some.mp found
    have ⟨path', value', stands', same, _⟩ := counts
    have together : IsMarked source ↔ IsMarked name := by
      rcases alike with all | none
      · exact iff_of_true (all _ _ _ _ stands') (all _ _ _ _ stands)
      · exact iff_of_false (none _ _ _ _ stands') (none _ _ _ _ stands)
    obtain rfl : source = name :=
      eq_of_uniformKey (named _ _ _ _ stands') (named _ _ _ _ stands) together same
    rw [found, Option.some_or] at registered
    exact ⟨last, counts, registered⟩

end Programs

/-- Different names have the same key exactly if one is the marked form of the other and the other
    does not carry the mark; no third name has this key. So if all uniforms of some trees carry
    the mark, or none does, then each is found under its key. All names in a program are
    identifiers. -/
theorem uniformKey_collisions :
    (∀ first second, IsIdentifier first → IsIdentifier second → first ≠ second →
      (uniformKey first = uniformKey second ↔
        (MarkedForm second first ∧ ¬ IsMarked second) ∨
          (MarkedForm first second ∧ ¬ IsMarked first))) ∧
    (∀ first second third, IsIdentifier first → IsIdentifier second → IsIdentifier third →
      uniformKey first = uniformKey second → uniformKey second = uniformKey third →
        first = second ∨ second = third ∨ first = third) ∧
    (∀ nodes, EveryUniform nodes IsIdentifier →
      EveryUniform nodes IsMarked ∨ (EveryUniform nodes fun name => ¬ IsMarked name) →
        ∀ table, EveryUniform nodes fun name =>
          ∃ ty, LastUniform nodes (uniformKey name) ⟨name, ty⟩ ∧
            (registerUniforms nodes table).2.find? (uniformKey name) = some ⟨name, ty⟩) ∧
    (∀ source nodes, compile source = .ok nodes → EveryUniform nodes IsIdentifier) := by
  refine ⟨fun _ _ => uniformKey_eq_iff, ?three, fun _ => EveryUniform.find?, ?compiled⟩
  case three =>
    intro first second third firstNamed secondNamed thirdNamed same same'
    by_cases carries : IsMarked first ↔ IsMarked second
    · exact .inl (eq_of_uniformKey firstNamed secondNamed carries same)
    · by_cases carries' : IsMarked second ↔ IsMarked third
      · exact .inr (.inl (eq_of_uniformKey secondNamed thirdNamed carries' same'))
      · -- Of three names two carry the mark, or two do not.
        have together : IsMarked first ↔ IsMarked third := by tauto
        exact .inr (.inr (eq_of_uniformKey firstNamed thirdNamed together (same.trans same')))
  case compiled =>
    intro source nodes compiled
    obtain ⟨_, _, _, shaped, _⟩ := exists_of_compile compiled
    exact shaped.everyUniform

/-- The key of `uUX` is `uX`, which is the name of another uniform. As both carry the mark, both
    are found. -/
theorem uniformKey_collisions_nested :
    ∃ nodes, compile "uniform vec2 uUX; uniform float uX;" = .ok nodes ∧
      EveryUniform nodes IsMarked ∧ MarkedForm "uX" "uUX" ∧ uniformKey "uUX" ≠ uniformKey "uX" ∧
        ∀ table, EveryUniform nodes fun name =>
          ∃ ty, LastUniform nodes (uniformKey name) ⟨name, ty⟩ ∧
            (registerUniforms nodes table).2.find? (uniformKey name) = some ⟨name, ty⟩ := by
  obtain ⟨collide, _, find?, named⟩ := uniformKey_collisions
  let nodes : List Node :=
    [.declaration (some .uniform) "vec2" "uUX" none, .declaration (some .uniform) "float" "uX" none]
  have compiled : compile "uniform vec2 uUX; uniform float uX;" = .ok nodes := by decide +kernel
  have inner : IsMarked "uX" := ⟨'X', [], rfl, rfl⟩
  have outer : IsMarked "uUX" := ⟨'U', ['X'], rfl, rfl⟩
  have marked : EveryUniform nodes IsMarked := by
    intro path ty name value stands
    have member := mem_subtrees_iff.mpr ⟨path, stands⟩
    simp only [nodes, Node.subtrees_eq, Node.children, List.flatMap_cons, List.flatMap_nil,
      Option.toList_none, List.append_nil, List.singleton_append, List.mem_cons, List.not_mem_nil,
      Node.declaration.injEq, or_false] at member
    obtain ⟨_, _, rfl, _⟩ | ⟨_, _, rfl, _⟩ := member
    · exact outer
    · exact inner
  refine ⟨nodes, compiled, marked, ⟨'U', ['X'], rfl, rfl, rfl⟩, ?_,
    find? nodes (named _ nodes compiled) (.inl marked)⟩
  intro same
  rcases (collide "uUX" "uX" rfl rfl (by decide)).mp same with ⟨_, unmarked⟩ | ⟨_, unmarked⟩
  · exact unmarked inner
  · exact unmarked outer

end ShaderSource
