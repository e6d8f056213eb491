import ShaderSource.Proofs.Literal
import ShaderSource.Proofs.Table
import ShaderSource.Proofs.Template

/-!
# Placeholders are exchanged as if all at once

Placeholders are exchanged one name after the other, in the order that a table happens to have,
and each exchange searches the whole text that the earlier ones left. Literals have no dollar
sign, so after some of the names the text of a template is the template with just these filled.
At the end the order does not show, unless it decides which of several errors is reported.
-/

namespace ShaderSource

open Text

section Literals

/-- The text of a number has no dollar sign. -/
theorem plain_of_numberText {chars : List Char} (number : Binary64.numberText chars = true) :
    '$' ∉ chars := by
  have digits : ∀ part : List Char, part.all Char.isDigit = true → '$' ∉ part := by
    intro part all member
    exact absurd (List.all_eq_true.mp all '$' member) (by decide)
  have whole : ∀ part, Lexeme.integerText part = true → '$' ∉ part := by
    intro part integer
    rw [Lexeme.integerText, Bool.and_eq_true] at integer
    exact digits part integer.2
  rw [Binary64.numberText, Bool.or_eq_true] at number
  rcases number with integer | point
  · exact whole chars integer
  · unfold Lexeme.floatText at point
    split at point
    case h_1 fraction split =>
      rw [← List.takeWhile_append_dropWhile (p := Char.isDigit) (l := chars), split]
      have front := digits _ (List.all_takeWhile (p := Char.isDigit) (l := chars))
      simp [front, whole fraction point]
    case h_2 => exact Bool.noConfusion point

/-- No number has a dollar sign. -/
theorem IsSignedText.plain {text : String} (signed : IsSignedText Binary64.numberText text) :
    '$' ∉ text.toList := by
  obtain ⟨negative, chars, number, rfl⟩ := signed
  have sign : '$' ∉ signText negative := by cases negative <;> decide
  rw [String.toList_ofList, List.mem_append, not_or]
  exact ⟨sign, plain_of_numberText number⟩

/-- No name of a literal type has a dollar sign. -/
theorem LiteralType.plain_name (ty : LiteralType) : '$' ∉ ty.name.toList := by
  have sized : ∀ size, '$' ∉ Nat.toDigits 10 size := fun size =>
    plain_of_numberText (Binary64.numberText_of_integer (Binary64.integerText_toDigits size))
  cases ty with
  | int => decide
  | float => decide
  | vec size => simp [LiteralType.name, sized]
  | ivec size => simp [LiteralType.name, sized]

/-- The call of a constructor has no dollar sign if no component has one. -/
theorem constructorCall_plain (ty : LiteralType) {components : List String}
    (each : ∀ component ∈ components, '$' ∉ component.toList) :
    '$' ∉ (constructorCall ty components).toList := by
  have inner : '$' ∉ [',', ' '].intercalate (components.map String.toList) := by
    cases components with
    | nil => simp
    | cons first others =>
      rw [List.map_cons, Text.intercalate_cons, List.mem_append, not_or]
      refine ⟨each first List.mem_cons_self, ?_⟩
      intro member
      obtain ⟨chars, listed, member⟩ := List.mem_flatMap.mp member
      obtain ⟨component, inside, rfl⟩ := List.mem_map.mp listed
      rcases List.mem_append.mp member with separator | member
      · exact absurd separator (by decide)
      · exact each component (List.mem_cons_of_mem _ inside) member
  simp [constructorCall, ty.plain_name, inner]

/-- No literal has a dollar sign. -/
theorem renderLiteral_plain {value : HostValue} {ty : LiteralType} {text : String}
    (rendered : renderLiteral value ty = .ok text) : '$' ∉ text.toList := by
  cases renderLiteral_text rendered with
  | int signed => exact (signed.weaken Binary64.numberText_of_integer).plain
  | float signed => exact (signed.weaken Binary64.numberText_of_float).plain
  | vec components each =>
    exact constructorCall_plain _ fun component member => (each component member).plain
  | ivec components each =>
    refine constructorCall_plain _ fun component member => ?_
    exact ((each component member).weaken Binary64.numberText_of_integer).plain

end Literals

section Rendering

/-- What the value of a name is written as under the type of the name, if it has both. -/
def rendering? (data : DataTable) (types : PlaceholderTable) (name : String) :
    Option (Except LiteralError String) :=
  (data.find? name).bind fun value => (types.find? name).map fun ty => renderLiteral value ty

/-- The literal of a name, if it has one. -/
def literal? (data : DataTable) (types : PlaceholderTable) (name : String) : Option String :=
  match rendering? data types name with
  | some (.ok literal) => some literal
  | _ => none

/-- No literal has a dollar sign, so none makes a new placeholder. -/
theorem literal?_plain (data : DataTable) (types : PlaceholderTable) :
    PlainFilling (literal? data types) := by
  intro name text given
  unfold literal? at given
  split at given
  case h_1 literal rendered =>
    obtain rfl := Option.some.inj given
    obtain ⟨value, -, rendered⟩ := Option.bind_eq_some_iff.mp rendered
    obtain ⟨ty, -, rendered⟩ := Option.map_eq_some_iff.mp rendered
    exact renderLiteral_plain rendered
  case h_2 => exact absurd given.symm (Option.some_ne_none text)

/-- A filling without the texts of some names. -/
def withheld (filling : String → Option String) (names : List String) (name : String) :
    Option String :=
  if name ∈ names then none else filling name

/-- A filling without some of its texts has no dollar signs either. -/
theorem withheld_plain {filling : String → Option String} (plain : PlainFilling filling)
    (names : List String) : PlainFilling (withheld filling names) := by
  intro name text given
  unfold withheld at given
  split at given
  case isTrue => exact absurd given.symm (Option.some_ne_none text)
  case isFalse => exact plain name text given

/-- To withhold nothing changes nothing. -/
theorem withheld_nil (filling : String → Option String) : withheld filling [] = filling := by
  funext name
  simp [withheld]

/-- Giving a name its text leaves one name less to be given. -/
theorem update_withheld (filling : String → Option String) {name : String} {names : List String}
    (fresh : name ∉ names) :
    Function.update (withheld filling (name :: names)) name (filling name) =
      withheld filling names := by
  funext other
  by_cases same : other = name
  · subst same
    rw [Function.update_self, withheld, if_neg fresh]
  · rw [Function.update_of_ne same]
    simp [withheld, same]

end Rendering

namespace Template

variable (template : Template) (data : DataTable) {types : PlaceholderTable}

/-- The error of a name that has a placeholder. -/
def failure? (data : DataTable) (types : PlaceholderTable) (name : String) : Option LiteralError :=
  if name ∈ template.names then
    match rendering? data types name with
    | some (.error error) => some error
    | _ => none
  else none

/-- Exchanging one placeholder fills it with its literal, if there is one. It fails if there is an
    error instead and the placeholder occurs. -/
theorem substitutePlaceholder_chars {filling : String → Option String} {name : String}
    (plain : PlainFilling filling) (word : isWord name.toList = true)
    (unfilled : filling name = none) {ty : LiteralType} (known : types.find? name = some ty) :
    substitutePlaceholder data name ty (template.chars filling) =
      match template.failure? data types name with
      | some error => .error error
      | none => .ok (template.chars (Function.update filling name (literal? data types name))) := by
  unfold substitutePlaceholder failure? literal? rendering?
  rw [template.occursIn_chars plain word unfilled, known]
  cases data.find? name with
  | none =>
    have unchanged : Function.update filling name none = filling := by
      rw [← unfilled, Function.update_eq_self]
    simp [unchanged]
  | some value =>
    by_cases member : name ∈ template.names
    · cases rendered : renderLiteral value ty with
      | error error => simp [member, rendered, Except.map]
      | ok literal =>
        have exchanged := template.replaceAll_chars plain word unfilled literal
        simp [member, rendered, Except.map, exchanged]
    · simp [member, template.chars_update_of_not_mem filling member]

/-- Exchanging some placeholders in turn fills them with their literals, if none of them fails. The
    first one that fails decides the error. -/
theorem substituteInOrder_chars {entries : List (String × LiteralType)}
    (worded : ∀ entry ∈ entries, isWord entry.1.toList = true)
    (distinct : (entries.map Prod.fst).Nodup)
    (known : ∀ entry ∈ entries, types.find? entry.1 = some entry.2) :
    substituteInOrder data entries
        (template.chars (withheld (literal? data types) (entries.map Prod.fst))) =
      match entries.findSome? fun entry => template.failure? data types entry.1 with
      | some error => .error error
      | none => .ok (template.chars (literal? data types)) := by
  induction entries with
  | nil =>
    rw [List.map_nil, withheld_nil]
    rfl
  | cons entry entries inductionHypothesis =>
    obtain ⟨name, ty⟩ := entry
    rw [List.map_cons, List.nodup_cons] at distinct
    obtain ⟨fresh, distinct⟩ := distinct
    have step : ∀ chars, substituteInOrder data ((name, ty) :: entries) chars =
        (substitutePlaceholder data name ty chars).bind (substituteInOrder data entries) :=
      fun _ => rfl
    have first := template.substitutePlaceholder_chars data
      (withheld_plain (literal?_plain data types) (name :: entries.map Prod.fst))
      (worded (name, ty) List.mem_cons_self) (if_pos List.mem_cons_self)
      (known (name, ty) List.mem_cons_self)
    have others := inductionHypothesis
      (fun entry member => worded entry (List.mem_cons_of_mem _ member)) distinct
      (fun entry member => known entry (List.mem_cons_of_mem _ member))
    -- Once the first name has its literal, only the names behind it are withheld.
    rw [update_withheld _ fresh] at first
    rw [List.map_cons, step, first, List.findSome?_cons]
    cases template.failure? data types name with
    | some error => rfl
    | none => exact others

end Template

section Order

variable {types order : PlaceholderTable}

/-- Exchanging the placeholders of a template fills each that has a literal, whatever order the
    table of their types is gone through in, or reports the first error in this order. -/
theorem Template.substitutePlaceholders_source (template : Template) (data : DataTable)
    (worded : ∀ entry ∈ types.entries, isWord entry.1.toList = true)
    (same : order.entries.Perm types.entries) :
    substitutePlaceholders template.source data order =
      match order.entries.findSome? fun entry => template.failure? data types entry.1 with
      | some error => .error error
      | none => .ok (template.filled (literal? data types)) := by
  -- Before the first exchange all names of the table are withheld, and others have no literal.
  have start : withheld (literal? data types) (order.entries.map Prod.fst) = fun _ => none := by
    funext name
    unfold withheld
    split
    case isTrue => rfl
    case isFalse absent =>
      have unknown := types.find?_eq_none_iff.mpr fun member =>
        absent ((same.map Prod.fst).mem_iff.mpr member)
      unfold literal? rendering?
      cases data.find? name <;> simp [unknown]
  have run := template.substituteInOrder_chars data
    (fun entry member => worded entry (same.mem_iff.mp member)) order.distinct
    (fun entry member => types.find?_eq_some_iff.mpr (same.mem_iff.mp member))
  rw [start] at run
  rw [substitutePlaceholders, Template.source, String.toList_ofList, run]
  cases order.entries.findSome? fun entry => template.failure? data types entry.1 <;> rfl

end Order

section Outcome

namespace Template

variable {template : Template} {data : DataTable} {types : PlaceholderTable}

/-- A name fails exactly if it occurs and its value cannot be rendered. -/
theorem failure?_eq_some_iff {name : String} {error : LiteralError} :
    template.failure? data types name = some error ↔
      name ∈ template.names ∧ rendering? data types name = some (.error error) := by
  unfold failure?
  by_cases member : name ∈ template.names
  · rw [if_pos member]
    cases rendered : rendering? data types name with
    | none => simp
    | some result => cases result <;> simp [member]
  · simp [member]

/-- A placeholder whose value cannot be rendered fails. -/
theorem failure?_of_mem {slot : Slot} {error : LiteralError} (member : slot ∈ template.slots)
    (rendered : rendering? data types slot.name = some (.error error)) :
    template.failure? data types slot.name = some error :=
  failure?_eq_some_iff.mpr ⟨List.mem_map_of_mem member, rendered⟩

/-- A name that fails is one of a placeholder. -/
theorem exists_of_failure? {name : String} {error : LiteralError}
    (failed : template.failure? data types name = some error) :
    ∃ slot ∈ template.slots, rendering? data types slot.name = some (.error error) := by
  obtain ⟨member, rendered⟩ := failure?_eq_some_iff.mp failed
  obtain ⟨slot, inside, rfl⟩ := List.mem_map.mp member
  exact ⟨slot, inside, rendered⟩

end Template

/-- Only names with a type are rendered. -/
theorem mem_of_rendering? {data : DataTable} {types : PlaceholderTable} {name : String}
    {result : Except LiteralError String} (rendered : rendering? data types name = some result) :
    ∃ ty, (name, ty) ∈ types.entries := by
  obtain ⟨_, -, rendered⟩ := Option.bind_eq_some_iff.mp rendered
  obtain ⟨ty, known, -⟩ := Option.map_eq_some_iff.mp rendered
  exact ⟨ty, types.find?_eq_some_iff.mp known⟩

/-- Exchanging the placeholders of a template is filling them all at once, whatever order the table
    of their types is gone through in: each name with a value and a type is exchanged for its
    literal, and the other placeholders stay. If a placeholder has no literal because of an error,
    the result is the error of one of them. Only names that have a placeholder are reported. -/
theorem substitutePlaceholders_exact (template : Template) (data : DataTable)
    {types order : PlaceholderTable}
    (worded : ∀ entry ∈ types.entries, isWord entry.1.toList = true)
    (same : order.entries.Perm types.entries) :
    ((∀ slot ∈ template.slots, ∀ error, rendering? data types slot.name ≠ some (.error error)) →
      substitutePlaceholders template.source data order =
        .ok (template.filled (literal? data types))) ∧
    (∀ slot ∈ template.slots, ∀ error, rendering? data types slot.name = some (.error error) →
      ∃ other ∈ template.slots, ∃ reported,
        rendering? data types other.name = some (.error reported) ∧
          substitutePlaceholders template.source data order = .error reported) ∧
    (∀ error, substitutePlaceholders template.source data order = .error error →
      ∃ slot ∈ template.slots, rendering? data types slot.name = some (.error error)) := by
  rw [template.substitutePlaceholders_source data worded same]
  cases found : order.entries.findSome? fun entry => template.failure? data types entry.1 with
  | none =>
    rw [List.findSome?_eq_none_iff] at found
    refine ⟨fun _ => rfl, fun slot member error rendered => ?_, fun error failed => ?_⟩
    · obtain ⟨ty, listed⟩ := mem_of_rendering? rendered
      have fails := Template.failure?_of_mem member rendered
      rw [found _ (same.mem_iff.mpr listed)] at fails
      exact absurd fails.symm (Option.some_ne_none error)
    · simp at failed
  | some reported =>
    obtain ⟨entry, -, failed⟩ := List.exists_of_findSome?_eq_some found
    obtain ⟨slot, member, rendered⟩ := Template.exists_of_failure? failed
    refine ⟨fun renders => absurd rendered (renders slot member reported), ?_, ?_⟩
    · intro _ _ _ _
      exact ⟨slot, member, reported, rendered, rfl⟩
    · intro error failed
      obtain rfl := Except.error.inj failed
      exact ⟨slot, member, rendered⟩

/-- A placeholder that occurs twice, one that is filled in first although it stands behind, and one
    without a value. -/
theorem substitutePlaceholders_exact_reversed :
    ∃ data : DataTable,
      substitutePlaceholders "x = $n$ * $n$ + $tint$.x + $free$;" data
          (.ofList [("tint", .vec 3), ("n", .float)]) =
        .ok "x = 3.0 * 3.0 + vec3(1, 0.5, 0).x + $free$;" := by
  let data : DataTable := .ofList
    [("n", .scalar (.ofDecimal false 3 0)),
      ("tint", .vector [.ofDecimal false 1 0, .ofDecimal false 5 (-1), .zero false])]
  let slots : List Slot :=
    [⟨"n", " * ".toList⟩, ⟨"n", " + ".toList⟩, ⟨"tint", ".x + ".toList⟩, ⟨"free", ";".toList⟩]
  let template : Template :=
    ⟨"x = ".toList, slots, by decide, by decide, by decide, by decide⟩
  let types : PlaceholderTable := .ofList [("n", .float), ("tint", .vec 3)]
  let order : PlaceholderTable := .ofList [("tint", .vec 3), ("n", .float)]
  have swapped : order.entries.Perm types.entries := .swap _ _ _
  obtain ⟨filled, -, -⟩ := substitutePlaceholders_exact template data
    (by decide : ∀ entry ∈ types.entries, isWord entry.1.toList = true) swapped
  have source : template.source = "x = $n$ * $n$ + $tint$.x + $free$;" := by decide +kernel
  have result : template.filled (literal? data types) =
      "x = 3.0 * 3.0 + vec3(1, 0.5, 0).x + $free$;" := by decide +kernel
  have succeeds : ∀ slot ∈ template.slots, template.failure? data types slot.name = none := by
    decide +kernel
  have renders : ∀ slot ∈ template.slots, ∀ error,
      rendering? data types slot.name ≠ some (.error error) := by
    intro slot member error rendered
    have fails := Template.failure?_of_mem member rendered
    rw [succeeds slot member] at fails
    exact absurd fails.symm (Option.some_ne_none error)
  rw [source, result] at filled
  exact ⟨data, filled renders⟩

/-- With no more than a name between two placeholders they are found to begin another one, and the
    order counts. -/
example : ∃ data : DataTable,
    substitutePlaceholders "$a$b$c$" data (.ofList [("a", .int), ("b", .int)]) = .ok "1b$c$" ∧
      substitutePlaceholders "$a$b$c$" data (.ofList [("b", .int), ("a", .int)]) = .ok "$a2c$" := by
  refine ⟨.ofList [("a", .scalar (.ofDecimal false 1 0)), ("b", .scalar (.ofDecimal false 2 0))], ?_⟩
  decide +kernel

end Outcome

end ShaderSource
