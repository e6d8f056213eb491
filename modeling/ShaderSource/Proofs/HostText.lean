import ShaderSource.Literal
import ShaderSource.Proofs.Number.ReadBack
import ShaderSource.Proofs.Text.Padding

/-!
# Host values in text

The texts of host values: the text of a number; texts of numbers with commas
between them, in brackets; and the same without brackets if there are two
numbers or more. Blanks may stand around the whole and around each number. No
other text has a value, and the value of a text is the one that it writes.
-/

namespace ShaderSource

open Text

/-- The text of a number, with blanks around it. -/
def WritesNumber (text : List Char) (number : Binary64) : Prop :=
  ∃ core, Padded text core ∧ Binary64.read? core = some number

/-- The texts of some numbers, each with blanks around it, and commas between them. -/
inductive WritesNumbers : List Char → List Binary64 → Prop where
  | last {item : List Char} {number : Binary64} (writes : WritesNumber item number) :
      WritesNumbers item [number]
  | more {item rest : List Char} {number : Binary64} {numbers : List Binary64}
      (writes : WritesNumber item number) (others : WritesNumbers rest numbers) :
      WritesNumbers (item ++ ',' :: rest) (number :: numbers)

/-- The text of a host value, without the blanks around it. -/
inductive HostValue.Writes : List Char → HostValue → Prop where
  | scalar {text : List Char} {number : Binary64} (read : Binary64.read? text = some number) :
      Writes text (.scalar number)
  | bracketed {text : List Char} {numbers : List Binary64} (writes : WritesNumbers text numbers) :
      Writes ('[' :: text ++ [']']) (.vector numbers)
  | bare {text : List Char} {numbers : List Binary64} (writes : WritesNumbers text numbers)
      (several : 2 ≤ numbers.length) : Writes text (.vector numbers)

section Numbers

variable {text core item rest chars : List Char} {number : Binary64} {numbers : List Binary64}

/-- The text of a number has no blanks. -/
theorem solid_of_read? (read : Binary64.read? text = some number) : Solid text := by
  obtain ⟨filled, numerals⟩ := Binary64.isNumeral_of_read? read
  refine ⟨filled, fun char first => ?_, fun char last => ?_⟩
  · exact (Binary64.not_separator (numerals char (List.mem_of_head? first))).1
  · exact (Binary64.not_separator (numerals char (List.mem_of_getLast? last))).1

/-- Blanks around the text of a number leave the number. -/
theorem WritesNumber.pad (padded : Padded text core) (writes : WritesNumber core number) :
    WritesNumber text number := by
  obtain ⟨inner, within, read⟩ := writes
  exact ⟨inner, padded.trans within, read⟩

/-- A text is that of a number if what is left without the blanks around it is read as one. -/
theorem writesNumber_iff : WritesNumber text number ↔ Binary64.read? (trim text) = some number := by
  constructor
  · rintro ⟨core, padded, read⟩
    rwa [trim_of_padded padded (solid_of_read? read)]
  · exact fun read => ⟨trim text, padded_trim text, read⟩

/-- The text of a number has no commas, also with blanks around it. -/
theorem WritesNumber.comma_notMem (writes : WritesNumber text number) : ',' ∉ text := by
  obtain ⟨core, ⟨left, right, leftBlank, rightBlank, rfl⟩, read⟩ := writes
  have blank : isBlank ',' = false := by decide
  have outside {blanks : List Char} (all : blanks.all isBlank = true) : ',' ∉ blanks := by
    intro member
    exact Bool.noConfusion (blank.symm.trans (List.all_eq_true.mp all _ member))
  have inside : ',' ∉ core := fun member =>
    (Binary64.not_separator ((Binary64.isNumeral_of_read? read).2 _ member)).2.1 rfl
  simp only [List.mem_append, not_or]
  exact ⟨⟨outside leftBlank, inside⟩, outside rightBlank⟩

/-- Some items are read if the first one is and the others are. -/
theorem mapM_cons_eq_some {read : List Char → Option Binary64} {items : List (List Char)} :
    (item :: items).mapM read = some numbers ↔
      ∃ number others, read item = some number ∧ items.mapM read = some others ∧
        numbers = number :: others := by
  simp only [List.mapM_cons, Option.bind_eq_bind, Option.bind_eq_some_iff, Option.pure_def,
    Option.some.injEq, exists_and_left, @eq_comm _ numbers]

/-- The fields of a text are read as some numbers exactly if the text writes them. -/
theorem writesNumbers_iff :
    WritesNumbers text numbers ↔
      (fields ',' text).mapM (fun item => Binary64.read? (trim item)) = some numbers := by
  constructor
  · intro writes
    induction writes with
    | last writes =>
      rw [fields_of_notMem writes.comma_notMem]
      simp [writesNumber_iff.mp writes]
    | more writes _ inductionHypothesis =>
      rw [fields_append writes.comma_notMem]
      simp [writesNumber_iff.mp writes, inductionHypothesis]
  · intro read
    induction size : text.length using Nat.strong_induction_on generalizing text numbers with
    | _ size inductionHypothesis =>
      subst size
      by_cases comma : ',' ∈ text
      case pos =>
        obtain ⟨item, rest, rfl, absent⟩ := List.eq_append_cons_of_mem comma
        rw [fields_append absent, mapM_cons_eq_some] at read
        obtain ⟨number, others, first, later, rfl⟩ := read
        have shorter : rest.length < (item ++ ',' :: rest).length := by
          rw [List.length_append, List.length_cons]
          omega
        exact .more (writesNumber_iff.mpr first) (inductionHypothesis _ shorter later rfl)
      case neg =>
        rw [fields_of_notMem comma, mapM_cons_eq_some] at read
        obtain ⟨number, others, first, later, rfl⟩ := read
        cases (later : some [] = some others)
        exact .last (writesNumber_iff.mpr first)

/-- A text writes one number at the least. -/
theorem WritesNumbers.filled (writes : WritesNumbers text numbers) : numbers ≠ [] := by
  cases writes <;> exact List.cons_ne_nil _ _

/-- The text of several numbers has a comma. -/
theorem WritesNumbers.comma_mem (writes : WritesNumbers text numbers)
    (several : 2 ≤ numbers.length) : ',' ∈ text := by
  cases writes with
  | last => exact absurd several (Nat.not_succ_le_self 1)
  | more => exact List.mem_append_right _ List.mem_cons_self

/-- Blanks in front of a text leave the numbers. -/
theorem WritesNumbers.padLeft {blanks : List Char} (all : blanks.all isBlank = true)
    (writes : WritesNumbers text numbers) : WritesNumbers (blanks ++ text) numbers := by
  have padded (chars : List Char) : Padded (blanks ++ chars) chars :=
    ⟨blanks, [], all, rfl, (List.append_nil _).symm⟩
  cases writes with
  | last writes => exact .last (writes.pad (padded _))
  | more writes others =>
    rw [← List.append_assoc]
    exact .more (writes.pad (padded _)) others

/-- The text of some numbers, without the blanks around it, is a text of the same numbers. It
    begins as the text of a number does. -/
theorem WritesNumbers.exists_solid (writes : WritesNumbers text numbers) :
    ∃ core, Padded text core ∧ Solid core ∧ WritesNumbers core numbers ∧
      ∃ front back, core = front ++ back ∧ ∃ number, Binary64.read? front = some number := by
  induction writes with
  | last writes =>
    obtain ⟨core, padded, read⟩ := writes
    exact ⟨core, padded, solid_of_read? read, .last ⟨core, .refl core, read⟩, core, [],
      (List.append_nil core).symm, _, read⟩
  | more writes _ inductionHypothesis =>
    obtain ⟨first, ⟨left, right, leftBlank, rightBlank, rfl⟩, read⟩ := writes
    obtain ⟨core, ⟨before, behind, beforeBlank, behindBlank, rfl⟩, solid, others, _⟩ :=
      inductionHypothesis
    have starts := solid_of_read? read
    have item : WritesNumber (first ++ right) _ :=
      ⟨first, ⟨[], right, rfl, rightBlank, rfl⟩, read⟩
    refine ⟨(first ++ right) ++ ',' :: (before ++ core), ⟨left, behind, leftBlank, behindBlank, ?_⟩,
      ⟨?_, ?_, ?_⟩, .more item (others.padLeft beforeBlank), first,
      right ++ ',' :: (before ++ core), List.append_assoc _ _ _, _, read⟩
    · simp only [List.append_assoc, List.cons_append]
    · exact List.append_ne_nil_of_right_ne_nil _ (List.cons_ne_nil _ _)
    · rw [List.append_assoc, List.head?_append_of_ne_nil _ starts.filled]
      exact starts.first
    · rw [← List.cons_append, ← List.append_assoc, List.getLast?_append_of_ne_nil _ solid.filled]
      exact solid.last

end Numbers

section Values

variable {text : String} {core chars inner : List Char} {value : HostValue}

/-- The brackets are taken off exactly where there are both. -/
theorem unbracketed?_eq_some_iff :
    HostValue.unbracketed? chars = some inner ↔ chars = '[' :: inner ++ [']'] := by
  unfold HostValue.unbracketed?
  split
  case h_1 rest =>
    constructor
    · intro found
      split at found
      case isTrue last =>
        obtain ⟨others, rfl⟩ := List.getLast?_eq_some_iff.mp last
        rw [List.dropLast_concat, Option.some.injEq] at found
        rw [found]
        rfl
      case isFalse => exact absurd found (by simp)
    · intro same
      obtain rfl : rest = inner ++ [']'] := (List.cons.inj same).2
      rw [List.getLast?_concat, if_pos rfl, List.dropLast_concat]
  case h_2 other =>
    constructor
    · intro found
      exact absurd found (by simp)
    · rintro rfl
      exact absurd rfl (other _)

/-- A text that begins as a number does is not in brackets. -/
theorem unbracketed?_of_read? {front back : List Char} {number : Binary64}
    (read : Binary64.read? front = some number) :
    HostValue.unbracketed? (front ++ back) = none := by
  obtain ⟨filled, numerals⟩ := Binary64.isNumeral_of_read? read
  cases found : HostValue.unbracketed? (front ++ back) with
  | none => rfl
  | some inner =>
    cases front with
    | nil => exact absurd rfl filled
    | cons char rest =>
      have bracket : char = '[' := (List.cons.inj (unbracketed?_eq_some_iff.mp found)).1
      exact absurd bracket (Binary64.not_separator (numerals char List.mem_cons_self)).2.2.1

/-- The value of a text without blanks around it. -/
def HostValue.ofTrimmed? (trimmed : List Char) : Option HostValue :=
  match HostValue.unbracketed? trimmed with
  | some inner => HostValue.ofText.vector? inner
  | none =>
    if trimmed.contains ',' then HostValue.ofText.vector? trimmed
    else (Binary64.read? trimmed).map .scalar

/-- Reading a text is reading it without the blanks around it; the error has all of it. -/
theorem HostValue.ofText_eq (text : String) :
    HostValue.ofText text =
      match HostValue.ofTrimmed? (trim text.toList) with
      | some value => .ok value
      | none => .error (.invalidValue text) := rfl

/-- A list is read exactly if the text writes its numbers. -/
theorem vector?_eq_some_iff :
    HostValue.ofText.vector? chars = some value ↔
      ∃ numbers, value = .vector numbers ∧ WritesNumbers chars numbers := by
  simp only [HostValue.ofText.vector?, Option.map_eq_some_iff, writesNumbers_iff,
    @eq_comm _ value, and_comm]

/-- The value of a text without blanks around it is what the text writes. -/
theorem HostValue.writes_of_ofTrimmed? (found : HostValue.ofTrimmed? core = some value) :
    HostValue.Writes core value := by
  unfold HostValue.ofTrimmed? at found
  split at found
  case h_1 inner bracketed =>
    obtain ⟨numbers, rfl, writes⟩ := vector?_eq_some_iff.mp found
    rw [unbracketed?_eq_some_iff.mp bracketed]
    exact .bracketed writes
  case h_2 =>
    split at found
    case isTrue comma =>
      obtain ⟨numbers, rfl, writes⟩ := vector?_eq_some_iff.mp found
      refine .bare writes ?_
      cases writes with
      | last writes => exact absurd (List.contains_iff_mem.mp comma) writes.comma_notMem
      | more _ others => exact Nat.succ_le_succ (List.length_pos_iff.mpr others.filled)
    case isFalse =>
      obtain ⟨number, read, rfl⟩ := Option.map_eq_some_iff.mp found
      exact .scalar read

/-- What a text writes is the value of the text without the blanks around it. -/
theorem HostValue.Writes.ofTrimmed? (writes : HostValue.Writes core value) :
    ∃ inner, Padded core inner ∧ Solid inner ∧ HostValue.ofTrimmed? inner = some value := by
  cases writes with
  | scalar read =>
    have comma : ',' ∉ core := WritesNumber.comma_notMem ⟨core, .refl core, read⟩
    have bare : HostValue.unbracketed? (core ++ []) = none := unbracketed?_of_read? read
    rw [List.append_nil] at bare
    refine ⟨core, .refl core, solid_of_read? read, ?_⟩
    simp [HostValue.ofTrimmed?, bare, comma, read]
  | bracketed writes =>
    refine ⟨_, .refl _, ⟨List.cons_ne_nil _ _, ?_, ?_⟩, ?_⟩
    · rintro char ⟨⟩
      decide
    · rw [List.getLast?_concat]
      rintro char ⟨⟩
      decide
    · rw [HostValue.ofTrimmed?, unbracketed?_eq_some_iff.mpr rfl]
      exact vector?_eq_some_iff.mpr ⟨_, rfl, writes⟩
  | bare writes several =>
    obtain ⟨inner, padded, solid, within, front, back, rfl, number, read⟩ := writes.exists_solid
    refine ⟨front ++ back, padded, solid, ?_⟩
    have comma : (front ++ back).contains ',' = true :=
      List.contains_iff_mem.mpr (within.comma_mem several)
    rw [HostValue.ofTrimmed?, unbracketed?_of_read? read]
    simp only [comma, if_true]
    exact vector?_eq_some_iff.mpr ⟨_, rfl, within⟩

/-- The value of a text is what the text writes, whichever blanks stand around it. -/
theorem HostValue.ofText_eq_ok_iff :
    HostValue.ofText text = .ok value ↔
      ∃ core, Padded text.toList core ∧ HostValue.Writes core value := by
  rw [HostValue.ofText_eq]
  constructor
  · intro read
    split at read
    case h_1 found =>
      cases read
      exact ⟨_, padded_trim _, HostValue.writes_of_ofTrimmed? found⟩
    case h_2 => exact absurd read (by simp)
  · rintro ⟨core, padded, writes⟩
    obtain ⟨inner, within, solid, found⟩ := writes.ofTrimmed?
    rw [trim_of_padded (padded.trans within) solid, found]

/-- A text that writes no value is refused as it is, and for no other reason. -/
theorem HostValue.ofText_eq_error_iff {error : LiteralError} :
    HostValue.ofText text = .error error ↔
      error = .invalidValue text ∧
        ∀ core value, Padded text.toList core → ¬ HostValue.Writes core value := by
  constructor
  · intro refused
    constructor
    · rw [HostValue.ofText_eq] at refused
      split at refused
      case h_1 => exact absurd refused (by simp)
      case h_2 => exact (Except.error.inj refused).symm
    · intro core value padded writes
      rw [HostValue.ofText_eq_ok_iff.mpr ⟨core, padded, writes⟩] at refused
      exact absurd refused (by simp)
  · rintro ⟨rfl, nothing⟩
    cases read : HostValue.ofText text with
    | ok value =>
      obtain ⟨core, padded, writes⟩ := HostValue.ofText_eq_ok_iff.mp read
      exact absurd writes (nothing core value padded)
    | error error =>
      rw [HostValue.ofText_eq] at read
      split at read
      case h_1 => exact absurd read (by simp)
      case h_2 => rw [← read]

end Values

section Printed

/-- A number with the blanks that stand before its text and behind it. -/
structure SpacedNumber where
  before : String
  number : Binary64
  behind : String
  beforeBlank : before.toList.all isBlank = true
  behindBlank : behind.toList.all isBlank = true

/-- The printed number with its blanks. -/
def SpacedNumber.text (spaced : SpacedNumber) : String :=
  spaced.before ++ spaced.number.render ++ spaced.behind

/-- A printed number is the text of the number, whatever blanks are around it. -/
theorem SpacedNumber.writesNumber (spaced : SpacedNumber) :
    WritesNumber spaced.text.toList spaced.number := by
  refine ⟨spaced.number.toChars, ⟨spaced.before.toList, spaced.behind.toList, spaced.beforeBlank,
    spaced.behindBlank, ?_⟩, Binary64.read?_toChars spaced.number⟩
  rw [SpacedNumber.text, Binary64.render, String.toList_append, String.toList_append,
    String.toList_ofList]

/-- Printed numbers with commas between them write the numbers. -/
theorem writesNumbers_intercalate (first : SpacedNumber) (others : List SpacedNumber) :
    WritesNumbers (",".intercalate ((first :: others).map SpacedNumber.text)).toList
      ((first :: others).map SpacedNumber.number) := by
  induction others generalizing first with
  | nil =>
    rw [List.map_singleton, String.intercalate_singleton]
    exact .last first.writesNumber
  | cons next others inductionHypothesis =>
    rw [List.map_cons, List.map_cons, String.intercalate_cons_cons, String.toList_append,
      String.toList_append, List.append_assoc]
    exact .more first.writesNumber (inductionHypothesis next)

/-- Blanks around the text of a value leave the value. -/
theorem ofText_padded {left right text : String} {value : HostValue}
    (leftBlank : left.toList.all isBlank = true) (rightBlank : right.toList.all isBlank = true)
    (writes : HostValue.Writes text.toList value) :
    HostValue.ofText (left ++ text ++ right) = .ok value := by
  refine HostValue.ofText_eq_ok_iff.mpr ⟨text.toList, ⟨left.toList, right.toList, leftBlank,
    rightBlank, ?_⟩, writes⟩
  rw [String.toList_append, String.toList_append]

/-- A printed number is read back as this number and printed numbers as their list, whichever
    blanks stand around the whole and around each number: in brackets any list that is not empty,
    without brackets any list of two numbers or more. Conversely the value of a text is the one
    that the text writes, never an empty list, and a text that writes none is refused as a
    whole. -/
theorem HostValue.ofText_printed :
    (∀ spaced : SpacedNumber, HostValue.ofText spaced.text = .ok (.scalar spaced.number)) ∧
    (∀ (left right : String) (first : SpacedNumber) (others : List SpacedNumber),
      left.toList.all isBlank = true → right.toList.all isBlank = true →
        HostValue.ofText
            (left ++ ("[" ++ ",".intercalate ((first :: others).map SpacedNumber.text) ++ "]") ++
              right) =
          .ok (.vector ((first :: others).map SpacedNumber.number))) ∧
    (∀ (left right : String) (first second : SpacedNumber) (others : List SpacedNumber),
      left.toList.all isBlank = true → right.toList.all isBlank = true →
        HostValue.ofText
            (left ++ ",".intercalate ((first :: second :: others).map SpacedNumber.text) ++
              right) =
          .ok (.vector ((first :: second :: others).map SpacedNumber.number))) ∧
    (∀ (text : String) (value : HostValue),
      HostValue.ofText text = .ok value ↔
        ∃ core, Padded text.toList core ∧ HostValue.Writes core value) ∧
    (∀ text : String, HostValue.ofText text ≠ .ok (.vector [])) ∧
    ∀ (text : String) (error : LiteralError),
      HostValue.ofText text = .error error ↔
        error = .invalidValue text ∧
          ∀ core value, Padded text.toList core → ¬ HostValue.Writes core value := by
  refine ⟨?single, ?bracketed, ?bare, fun text value => HostValue.ofText_eq_ok_iff, ?filled,
    fun text error => HostValue.ofText_eq_error_iff⟩
  case single =>
    intro spaced
    exact ofText_padded spaced.beforeBlank spaced.behindBlank
      (.scalar (by rw [Binary64.render, String.toList_ofList]; exact spaced.number.read?_toChars))
  case bracketed =>
    intro left right first others leftBlank rightBlank
    refine ofText_padded leftBlank rightBlank ?_
    rw [String.toList_append, String.toList_append]
    exact .bracketed (writesNumbers_intercalate first others)
  case bare =>
    intro left right first second others leftBlank rightBlank
    exact ofText_padded leftBlank rightBlank
      (.bare (writesNumbers_intercalate first (second :: others)) (Nat.le_add_left _ _))
  case filled =>
    intro text empty
    obtain ⟨core, _, writes⟩ := HostValue.ofText_eq_ok_iff.mp empty
    cases writes with
    | bracketed writes => exact writes.filled rfl
    | bare writes => exact writes.filled rfl

/-- A list of one number in brackets, with blanks of different kinds. -/
theorem HostValue.ofText_printed_single :
    ∃ number, Binary64.read? "-2.5".toList = some number ∧
      HostValue.ofText "\t[ -2.5\u3000] " = .ok (.vector [number]) := by
  let number : Binary64 := .finite true 5629499534213120 (-51) (by decide)
  refine ⟨number, by decide +kernel, ?_⟩
  have text : "\t[ -2.5\u3000] " =
      "\t" ++ ("[" ++ ",".intercalate [" " ++ number.render ++ "\u3000"] ++ "]") ++ " " := by
    decide +kernel
  rw [text]
  exact HostValue.ofText_printed.2.1 "\t" " " ⟨" ", number, "\u3000", by decide, by decide⟩ []
    (by decide) (by decide)

end Printed

end ShaderSource
