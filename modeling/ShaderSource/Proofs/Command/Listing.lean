import ShaderSource.Command.Run
import ShaderSource.Proofs.Session
import ShaderSource.Proofs.Text.Margin
import ShaderSource.Proofs.UniformKey

/-!
# The list of the uniforms

The uniforms of a processor are listed in the order of their keys, each on a line
of its own. All names in the list come from programs, so none of them ends a line:
there are as many lines as uniforms.
-/

namespace ShaderSource

section Lines

/-- A text that is neither empty nor longer than its line. -/
structure FillsLine (text : String) : Prop where
  filled : text.toList ≠ []
  noReturn : '\r' ∉ text.toList
  noFeed : '\n' ∉ text.toList

/-- Texts that stand on lines of their own are the lines. -/
theorem lines_join {texts : List String} (each : ∀ text ∈ texts, FillsLine text) :
    Text.lines (String.join (texts.map Outcome.printed)).toList = texts.map String.toList := by
  induction texts with
  | nil => rfl
  | cons text texts inductionHypothesis =>
    rw [List.forall_mem_cons] at each
    obtain ⟨⟨filled, noReturn, noFeed⟩, others⟩ := each
    have split : (String.join ((text :: texts).map Outcome.printed)).toList =
        text.toList ++ '\n' :: (String.join (texts.map Outcome.printed)).toList := by
      simp [Outcome.printed, String.toList_join]
    rw [split, Text.lines_append filled noReturn fun last => noFeed (List.mem_of_getLast? last),
      Text.lines_of_line filled noReturn noFeed, inductionHypothesis others]
    rfl

/-- What cannot go on in a name is nowhere in it. -/
theorem IsIdentifier.not_mem {name : String} (named : IsIdentifier name) {char : Char}
    (other : Lexeme.continuesIdentifier char = false) : char ∉ name.toList := by
  intro member
  unfold IsIdentifier at named
  cases shown : name.toList with
  | nil => simp [shown] at member
  | cons first rest =>
    rw [shown, Lexeme.identifierText, Bool.and_eq_true, List.all_eq_true] at named
    rw [shown, List.mem_cons] at member
    rcases member with rfl | later
    · simp [Lexeme.continuesIdentifier, named.1] at other
    · simp [named.2 char later] at other

/-- The line that shows a uniform. -/
def uniformLine (key : String) (binding : UniformBinding) : String :=
  key ++ ": " ++ binding.ty ++ " " ++ binding.sourceName

/-- Key, type and name of a uniform are identifiers. -/
structure UniformBinding.Named (key : String) (binding : UniformBinding) : Prop where
  key : IsIdentifier key
  ty : IsIdentifier binding.ty
  sourceName : IsIdentifier binding.sourceName

/-- The line of a uniform has no line feed but the one at its end. -/
theorem UniformBinding.Named.fillsLine {key : String} {binding : UniformBinding}
    (named : binding.Named key) : FillsLine (uniformLine key binding) := by
  have absent (char : Char) (other : Lexeme.continuesIdentifier char = false) :
      char ∉ key.toList ∧ char ∉ binding.ty.toList ∧ char ∉ binding.sourceName.toList :=
    ⟨named.key.not_mem other, named.ty.not_mem other, named.sourceName.not_mem other⟩
  constructor
  · simp [uniformLine]
  · simpa [uniformLine] using absent '\r' (by decide)
  · simpa [uniformLine] using absent '\n' (by decide)

end Lines

/-- All uniforms in a table have names that can stand in a program. -/
def UniformTable.Named (table : UniformTable) : Prop :=
  ∀ key binding, table.find? key = some binding → binding.Named key

/-- The empty table has no name that is not one. -/
theorem UniformTable.named_empty : UniformTable.Named .empty := by
  intro key binding found
  simp [Table.find?, Table.empty] at found

/-- The uniforms of a program have names for types, names and keys. -/
theorem ShapedProgram.named_of_mem {nodes : List Node} (shaped : ShapedProgram nodes)
    {key : String} {binding : UniformBinding} (bound : (key, binding) ∈ boundUniforms nodes) :
    binding.Named key := by
  rw [boundUniforms_eq] at bound
  obtain ⟨node, member, found⟩ := List.mem_filterMap.mp bound
  unfold declaredUniform? at found
  split at found
  case h_1 ty name value =>
    obtain ⟨rfl, rfl⟩ := Prod.mk.inj (Option.some.inj found)
    obtain ⟨typed, named, _⟩ := (shaped _ member).declared rfl
    have identifier := IsIdentifier.of_isNameText named
    exact ⟨identifier.uniformKey, .of_isNameText typed, identifier⟩
  case h_2 => simp at found

namespace Processor

variable {processor : Processor} {source : String}

/-- What a call adds is bound in a program. -/
theorem exists_of_mem_callUniforms {entry : String × UniformBinding}
    (member : entry ∈ processor.callUniforms source) :
    ∃ nodes, ShapedProgram nodes ∧ entry ∈ boundUniforms nodes := by
  unfold callUniforms at member
  split at member
  case isFalse => simp at member
  case isTrue =>
    split at member
    · simp at member
    · unfold sourceUniforms at member
      split at member
      · simp at member
      · split at member
        · simp at member
        · rename_i compiled
          obtain ⟨_, _, _, shaped, _⟩ := exists_of_compile compiled
          exact ⟨_, shaped, member⟩

/-- Processing keeps the names of the uniforms sound. -/
theorem named_tryProcess (named : UniformTable.Named processor.uniforms) (source : String) :
    UniformTable.Named (processor.tryProcess source).2.uniforms := by
  rw [tryProcess_snd]
  intro key binding found
  rcases processor.uniforms.mem_or_find?_of_extend found with added | before
  · obtain ⟨_, shaped, bound⟩ := exists_of_mem_callUniforms added
    exact shaped.named_of_mem bound
  · exact named key binding before

end Processor

/-- A text lists some uniforms in the order of their keys: all uniforms of a table, each on a line
    of its own. -/
structure Listing (table : UniformTable) (uniforms : List (String × UniformBinding))
    (text : String) : Prop where
  complete : ∀ key binding, (key, binding) ∈ uniforms ↔ table.find? key = some binding
  increasing : uniforms.Pairwise fun uniform later => uniform.1 < later.1
  lines : Text.lines text.toList =
    uniforms.map fun (key, binding) => (uniformLine key binding).toList
  ended : text = String.join (uniforms.map fun (key, binding) => uniformLine key binding ++ "\n")

/-- There is no text for an empty table. -/
theorem Listing.eq_empty {uniforms : List (String × UniformBinding)} {text : String}
    (listing : Listing .empty uniforms text) : text = "" := by
  have nothing : uniforms = [] := by
    rw [List.eq_nil_iff_forall_not_mem]
    rintro ⟨key, binding⟩ member
    have found := (listing.complete key binding).mp member
    simp [Table.find?, Table.empty] at found
  rw [listing.ended, nothing]
  rfl

/-- The lines of the uniforms are their list. -/
theorem listing_uniformLines {table : UniformTable} (named : table.Named) :
    Listing table table.sorted (Command.uniformLines table) where
  complete key binding := by rw [table.mem_sorted, table.find?_eq_some_iff]
  increasing := table.sorted_increasing
  lines := by
    let shown (uniform : String × UniformBinding) : String := uniformLine uniform.1 uniform.2
    have each : ∀ text ∈ table.sorted.map shown, FillsLine text := by
      rw [List.forall_mem_map]
      intro ⟨key, binding⟩ member
      have found := table.find?_eq_some_iff.mpr (table.mem_sorted.mp member)
      exact (named key binding found).fillsLine
    have listed := lines_join each
    rwa [List.map_map, List.map_map] at listed
  ended := rfl

end ShaderSource
