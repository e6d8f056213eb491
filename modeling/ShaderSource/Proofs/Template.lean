import Mathlib.Data.List.Basic
import Mathlib.Logic.Function.Basic
import ShaderSource.Placeholder
import ShaderSource.Proofs.Text.Replacement

/-!
# Texts with placeholders

In a template the dollar signs all belong to placeholders that are kept apart by more than a
name. It may be filled in part: a name that is given a text has the text in its place. Then
another placeholder is found only where it stands, for no given text has a dollar sign, and the
dollar sign that ends a placeholder does not begin another one. So exchanging one placeholder for
a text is filling it, and leaves the others.
-/

namespace ShaderSource

open Text

/-- The characters of the names of placeholders. -/
def isNameChar (char : Char) : Bool := char.isAlphanum || char == '_'

/-- Letters, digits and underscores only. -/
def isWord (chars : List Char) : Bool := chars.all isNameChar

/-- A placeholder and the text behind it, up to the next one. -/
structure Slot where
  name : String
  behind : List Char

/-- All names are words, and no other dollar signs are left. What stands between two placeholders
    is more than a word. -/
structure Spaced (slots : List Slot) : Prop where
  named : ∀ slot ∈ slots, isWord slot.name.toList = true
  plain : ∀ slot ∈ slots, '$' ∉ slot.behind
  parted : ∀ slot ∈ slots.dropLast, isWord slot.behind = false

/-- A text with placeholders. -/
structure Template where
  front : List Char
  slots : List Slot
  plain : '$' ∉ front
  spaced : Spaced slots

/-- What stands for a name: the text that it is given, or else its placeholder. -/
def fillText (filling : String → Option String) (name : String) : List Char :=
  match filling name with
  | some text => text.toList
  | none => placeholder name

/-- The text of some placeholders, filled where a text is given. -/
def slotsText (filling : String → Option String) (slots : List Slot) : List Char :=
  slots.flatMap fun slot => fillText filling slot.name ++ slot.behind

namespace Template

/-- The names of the placeholders. -/
def names (template : Template) : List String := template.slots.map Slot.name

/-- The text of a template, filled where a text is given. -/
def chars (template : Template) (filling : String → Option String) : List Char :=
  template.front ++ slotsText filling template.slots

/-- The text with all placeholders in it. -/
def source (template : Template) : String := String.ofList (template.chars fun _ => none)

/-- The text that some placeholders are filled in. -/
def filled (template : Template) (filling : String → Option String) : String :=
  String.ofList (template.chars filling)

end Template

section Names

/-- A word has no dollar sign. -/
theorem plain_of_isWord {chars : List Char} (word : isWord chars = true) : '$' ∉ chars := by
  intro member
  have char := List.all_eq_true.mp word '$' member
  exact absurd char (by decide)

/-- What stands in front of the first dollar sign. -/
def beforeDollar (chars : List Char) : List Char := chars.takeWhile fun char => char != '$'

/-- A text without dollar signs stands in front of the first one. -/
theorem beforeDollar_append {front : List Char} (plain : '$' ∉ front) (rest : List Char) :
    beforeDollar (front ++ rest) = front ++ beforeDollar rest := by
  refine List.takeWhile_append_of_pos fun char member => ?_
  rw [bne_iff_ne]
  rintro rfl
  exact plain member

/-- What stands in front of a dollar sign is found there. -/
theorem beforeDollar_closed {front : List Char} (plain : '$' ∉ front) (rest : List Char) :
    beforeDollar (front ++ '$' :: rest) = front := by
  rw [beforeDollar_append plain]
  simp [beforeDollar]

/-- A placeholder is never empty: it has its dollar signs, whatever its name. -/
theorem placeholder_ne_nil (name : String) : placeholder name ≠ [] := List.cons_ne_nil _ _

/-- A placeholder tells its name. -/
theorem eq_of_placeholder_begins {name other : String} (word : isWord name.toList = true)
    (otherWord : isWord other.toList = true) {rest : List Char}
    (begins : placeholder name <+: placeholder other ++ rest) : name = other := by
  obtain ⟨others, same⟩ := begins
  have behind : name.toList ++ '$' :: others = other.toList ++ '$' :: rest := by
    simpa [placeholder] using same
  have names := congrArg beforeDollar behind
  rw [beforeDollar_closed (plain_of_isWord word),
    beforeDollar_closed (plain_of_isWord otherWord)] at names
  exact String.toList_inj.mp names

/-- No word with a dollar sign behind it stands at the front of a text. -/
def Unnamed (chars : List Char) : Prop :=
  ∀ word, isWord word = true → ¬ word ++ ['$'] <+: chars

/-- In a text without dollar signs no word has one behind it. -/
theorem unnamed_of_plain {chars : List Char} (plain : '$' ∉ chars) : Unnamed chars := by
  rintro word - begins
  exact plain (begins.subset (by simp))

/-- More than a word stands in front of the first dollar sign. -/
theorem unnamed_append {front : List Char} (plain : '$' ∉ front) (other : isWord front = false)
    (rest : List Char) : Unnamed (front ++ rest) := by
  rintro word named ⟨others, same⟩
  have before := congrArg beforeDollar same
  rw [List.append_assoc, List.singleton_append, beforeDollar_closed (plain_of_isWord named),
    beforeDollar_append plain] at before
  rw [before, isWord, List.all_append, Bool.and_eq_true] at named
  exact absurd named.1 (Bool.eq_false_iff.mp other)

end Names

section Slots

variable {filling : String → Option String} {name : String}

/-- Where no text is given the placeholder stays. -/
theorem fillText_of_none (unfilled : filling name = none) :
    fillText filling name = placeholder name := by
  rw [fillText, unfilled]

/-- No given text has a dollar sign. -/
def PlainFilling (filling : String → Option String) : Prop :=
  ∀ name text, filling name = some text → '$' ∉ text.toList

/-- The placeholder of a name begins nowhere in what stands for another name. Its first dollar
    sign is not the one that ends the other placeholder, if no name and dollar sign follow. -/
theorem passedOver_fillText (plain : PlainFilling filling) (word : isWord name.toList = true)
    {other : String} (otherWord : isWord other.toList = true) (different : other ≠ name)
    {rest : List Char} (unnamed : Unnamed rest) :
    PassedOver (placeholder name) (fillText filling other) rest := by
  unfold fillText
  split
  case h_1 text given => exact passedOver_of_not_mem (plain other text given)
  case h_2 =>
    have opening : ¬ placeholder name <+: placeholder other ++ rest :=
      fun begins => different (eq_of_placeholder_begins word otherWord begins).symm
    have closing : PassedOver (placeholder name) ['$'] rest :=
      ⟨fun begins => unnamed _ word (List.cons_prefix_cons.mp begins).2, trivial⟩
    refine ⟨opening, passedOver_append.mpr ⟨?_, closing⟩⟩
    exact passedOver_of_not_mem (plain_of_isWord otherWord)

/-- The text of some slots is that of the first one, then what is behind it, then the others. -/
theorem slotsText_cons (filling : String → Option String) (slot : Slot) (slots : List Slot) :
    slotsText filling (slot :: slots) =
      fillText filling slot.name ++ (slot.behind ++ slotsText filling slots) := by
  rw [slotsText, List.flatMap_cons, List.append_assoc]
  rfl

namespace Spaced

variable {slot : Slot} {slots : List Slot}

/-- Behind the first slot the others are spaced too. -/
theorem tail (spaced : Spaced (slot :: slots)) : Spaced slots := by
  refine ⟨fun other member => spaced.named other (List.mem_cons_of_mem _ member),
    fun other member => spaced.plain other (List.mem_cons_of_mem _ member), ?_⟩
  intro other member
  cases slots with
  | nil => simp at member
  | cons next slots => exact spaced.parted other (List.mem_cons_of_mem _ member)

/-- What follows a placeholder is no other name and dollar sign. -/
theorem unnamed (spaced : Spaced (slot :: slots)) (filling : String → Option String) :
    Unnamed (slot.behind ++ slotsText filling slots) := by
  have plain := spaced.plain slot List.mem_cons_self
  cases slots with
  | nil =>
    rw [slotsText, List.flatMap_nil, List.append_nil]
    exact unnamed_of_plain plain
  | cons next slots => exact unnamed_append plain (spaced.parted slot List.mem_cons_self) _

/-- Exchanging one placeholder fills it, and nothing else. -/
theorem replaceAll_slotsText (spaced : Spaced slots) (plain : PlainFilling filling)
    (word : isWord name.toList = true) (unfilled : filling name = none) (literal : String) :
    replaceAll (placeholder name) literal.toList (slotsText filling slots) =
      slotsText (Function.update filling name (some literal)) slots := by
  induction slots with
  | nil =>
    rw [slotsText, List.flatMap_nil, replaceAll]
    rfl
  | cons slot slots inductionHypothesis =>
    have behind : PassedOver (placeholder name) slot.behind (slotsText filling slots) :=
      passedOver_of_not_mem (spaced.plain slot List.mem_cons_self)
    -- What stands behind the slot comes to the same on both sides; the slot itself is left.
    rw [slotsText_cons, slotsText_cons, ← inductionHypothesis spaced.tail,
      ← replaceAll_passedOver _ behind]
    by_cases same : slot.name = name
    · have given : fillText (Function.update filling name (some literal)) name =
          literal.toList := by
        rw [fillText, Function.update_self]
      rw [same, fillText_of_none unfilled, given]
      exact replaceAll_occurrence _ (placeholder_ne_nil name)
    · have kept : fillText (Function.update filling name (some literal)) slot.name =
          fillText filling slot.name := by
        rw [fillText, fillText, Function.update_of_ne same]
      rw [kept]
      exact replaceAll_passedOver _ (passedOver_fillText plain word
        (spaced.named slot List.mem_cons_self) same (spaced.unnamed filling))

/-- A placeholder occurs if it is there and has not been filled. -/
theorem occursIn_slotsText (spaced : Spaced slots) (plain : PlainFilling filling)
    (word : isWord name.toList = true) (unfilled : filling name = none) :
    occursIn (placeholder name) (slotsText filling slots) =
      decide (name ∈ slots.map Slot.name) := by
  induction slots with
  | nil => rfl
  | cons slot slots inductionHypothesis =>
    have behind : PassedOver (placeholder name) slot.behind (slotsText filling slots) :=
      passedOver_of_not_mem (spaced.plain slot List.mem_cons_self)
    rw [slotsText_cons]
    by_cases same : slot.name = name
    · rw [same, fillText_of_none unfilled, occursIn_occurrence (placeholder_ne_nil name)]
      simp [same]
    · rw [occursIn_passedOver (passedOver_fillText plain word
        (spaced.named slot List.mem_cons_self) same (spaced.unnamed filling)),
        occursIn_passedOver behind, inductionHypothesis spaced.tail]
      have different : ¬ name = slot.name := fun equal => same equal.symm
      simp [different]

end Spaced

/-- Only the texts that are given for its names matter to a text with placeholders. -/
theorem slotsText_congr {slots : List Slot} {other : String → Option String}
    (same : ∀ name ∈ slots.map Slot.name, filling name = other name) :
    slotsText filling slots = slotsText other slots := by
  refine List.flatMap_congr fun slot member => ?_
  rw [fillText, fillText, same slot.name (List.mem_map_of_mem member)]

namespace Template

variable (template : Template)

/-- No placeholder begins in the front of a template. -/
theorem passedOver_front (name : String) (rest : List Char) :
    PassedOver (placeholder name) template.front rest :=
  passedOver_of_not_mem template.plain

/-- A placeholder occurs in a text that is filled in part, if it is one of those left. -/
theorem occursIn_chars (plain : PlainFilling filling) (word : isWord name.toList = true)
    (unfilled : filling name = none) :
    occursIn (placeholder name) (template.chars filling) = decide (name ∈ template.names) := by
  rw [chars, occursIn_passedOver (template.passedOver_front name _)]
  exact template.spaced.occursIn_slotsText plain word unfilled

/-- Exchanging a placeholder for a text is giving its name the text. -/
theorem replaceAll_chars (plain : PlainFilling filling) (word : isWord name.toList = true)
    (unfilled : filling name = none) (literal : String) :
    replaceAll (placeholder name) literal.toList (template.chars filling) =
      template.chars (Function.update filling name (some literal)) := by
  rw [chars, replaceAll_passedOver _ (template.passedOver_front name _),
    template.spaced.replaceAll_slotsText plain word unfilled]
  rfl

/-- What a name without a placeholder is given does not show. -/
theorem chars_update_of_not_mem (filling : String → Option String) (absent : name ∉ template.names)
    (given : Option String) :
    template.chars (Function.update filling name given) = template.chars filling := by
  rw [chars, chars]
  congr 1
  refine slotsText_congr fun other member => Function.update_of_ne ?_ _ _
  rintro rfl
  exact absent member

end Template

end Slots

end ShaderSource
