import ShaderSource.Proofs.Diagnostic.Excerpt

/-!
# Lines that are not cut

A report has a number of columns for the lines of a source text. Lines that have room
there are shown from their first character to their last one, unless all of them begin
with many blanks. No character takes more columns than it has bytes, so it is enough
to count bytes, and four of them for a tab.
-/

namespace ShaderSource

-- The empty sum is the zero of the core library, also under a richer algebra.
attribute [local instance (high)] Zero.ofOfNat0

section Widths

/-- A character with a number from 2048 on has at least three bytes. -/
theorem three_le_utf8Size {char : Char} (high : 0x800 ≤ char.toNat) : 3 ≤ char.utf8Size := by
  have value : char.val.toNat = char.toNat := rfl
  simp only [Char.utf8Size, UInt32.le_iff_toNat_le, UInt32.toNat_ofNatLT, value]
  rw [if_neg (by omega), if_neg (by omega)]
  split <;> decide

/-- No character takes more columns than it has bytes. -/
theorem Text.columnWidth_le (char : Char) : columnWidth char ≤ char.utf8Size := by
  have positive := char.utf8Size_pos
  unfold columnWidth
  split
  · exact Nat.zero_le _
  · split
    case isTrue wide =>
      obtain ⟨range, listed, inside⟩ := List.any_eq_true.mp wide
      have high : wideRanges.all (fun range => 0x800 ≤ range.1) = true := by decide +kernel
      have first := List.all_eq_true.mp high range listed
      simp only [Bool.and_eq_true, decide_eq_true_eq] at inside first
      have size := three_le_utf8Size (first.trans inside.1)
      omega
    case isFalse =>
      split
      case isTrue same =>
        rw [same]
        decide
      case isFalse => exact positive

/-- A character is shown in at most as many columns as it has bytes. -/
theorem shownWidth_le (char : Char) : shownWidth char ≤ char.utf8Size := by
  unfold shownWidth
  split
  · exact char.utf8Size_pos
  · exact Text.columnWidth_le char

/-- What fits into some columns is the front of a line. -/
theorem fitting_begins (columns : Nat) (chars : List Char) : fitting columns chars <+: chars := by
  induction chars generalizing columns with
  | nil => exact List.nil_prefix
  | cons char chars inductionHypothesis =>
    rw [fitting]
    split
    · exact (List.prefix_cons_inj char).mpr (inductionHypothesis _)
    · exact List.nil_prefix

/-- All characters fit into as many columns as they have bytes. -/
theorem fitting_of_le {chars : List Char} {columns : Nat} (enough : utf8Length chars ≤ columns) :
    fitting columns chars = chars := by
  induction chars generalizing columns with
  | nil => rfl
  | cons char chars inductionHypothesis =>
    have width := shownWidth_le char
    rw [utf8Length_cons] at enough
    rw [fitting, if_pos (by omega), inductionHypothesis (by omega)]

/-- The first character of a line is shown before the others: a tab as spaces, and a control
    character that is not shown as nothing. -/
theorem shownText_cons (char : Char) (chars : List Char) :
    shownText (char :: chars) =
      (if char = '\t' then Text.indentation.toList
        else if isHiddenControl char then [] else [char]) ++ shownText chars := rfl

/-- The bytes of a line as it is shown, where a tab takes four. -/
theorem utf8Length_shownText_le (chars : List Char) :
    utf8Length (shownText chars) ≤ utf8Length chars + 3 * chars.count '\t' := by
  induction chars with
  | nil => exact Nat.le_refl _
  | cons char chars inductionHypothesis =>
    have four : utf8Length Text.indentation.toList = 4 := by decide +kernel
    have one : Char.utf8Size '\t' = 1 := by decide
    rw [shownText_cons, utf8Length_append, utf8Length_cons]
    by_cases tab : char = '\t'
    · rw [if_pos tab, tab, List.count_cons_self, four, one]
      omega
    · have count : (char :: chars).count '\t' = chars.count '\t' :=
        List.count_cons_of_ne tab
      rw [if_neg tab, count]
      split
      · rw [utf8Length_nil]
        omega
      · rw [utf8Length_cons, utf8Length_nil]
        omega

end Widths

/-- A text has short lines: in each of them there is room for its bytes, with three more for
    each tab, beside the digits of any line number. -/
def ShortLines (source : List Char) : Prop :=
  ∃ digits, source.count '\n' + 2 < 10 ^ digits ∧
    ∀ piece, piece <:+: source → '\n' ∉ piece →
      utf8Length piece + 3 * piece.count '\t' + digits ≤ 137

/-- A line is not set in by much: a character that is no blank is among its first columns. -/
def LineSplit.BeginsEarly (line : LineSplit) : Prop :=
  ∃ front char rest, line.text = front ++ char :: rest ∧ Text.isBlank char = false ∧
    front.length + 3 * front.count '\t' ≤ 26

namespace SourceLine

/-- The lines of a text are pieces of it without a line feed. -/
theorem infix_of_mem_split {number start : Nat} {current chars : List Char} {line : SourceLine}
    (noFeed : '\n' ∉ current) (member : line ∈ split number start current chars) :
    line.text <:+: current.reverse ++ chars ∧ '\n' ∉ line.text := by
  induction chars generalizing number start current with
  | nil =>
    rw [split] at member
    split at member
    · simp at member
    · obtain rfl := List.mem_singleton.mp member
      exact ⟨by simp, by simpa using noFeed⟩
  | cons char rest inductionHypothesis =>
    by_cases feed : char = '\n'
    case pos =>
      subst feed
      obtain ⟨text, endSize, next, read, parts⟩ := exists_split_feed number start current rest
      rw [read] at member
      rcases List.mem_cons.mp member with rfl | later
      · rw [← List.mem_reverse] at noFeed
        rcases parts with ⟨same, _⟩ | ⟨same, _⟩
        · exact ⟨⟨[], '\n' :: rest, by simp [same]⟩, same ▸ noFeed⟩
        · rw [same, List.mem_append, not_or] at noFeed
          exact ⟨⟨[], '\r' :: '\n' :: rest, by simp [same]⟩, noFeed.1⟩
      · obtain ⟨piece, noFeed'⟩ := inductionHypothesis List.not_mem_nil later
        exact ⟨piece.trans ⟨current.reverse ++ ['\n'], [], by simp⟩, noFeed'⟩
    case neg =>
      have noFeed' : '\n' ∉ char :: current := by
        rw [List.mem_cons, not_or]
        exact ⟨fun same => feed same.symm, noFeed⟩
      rw [split_cons feed] at member
      rw [List.append_cons, ← List.reverse_cons]
      exact inductionHypothesis noFeed' member

/-- There are no more lines than one more than line feeds. -/
theorem length_split_le (number start : Nat) (current chars : List Char) :
    (split number start current chars).length ≤ chars.count '\n' + 1 := by
  induction chars generalizing number start current with
  | nil =>
    rw [split]
    split <;> simp
  | cons char rest inductionHypothesis =>
    by_cases feed : char = '\n'
    case pos =>
      subst feed
      obtain ⟨text, endSize, next, read, _⟩ := exists_split_feed number start current rest
      rw [read, List.length_cons, List.count_cons_self]
      exact Nat.add_le_add_right (inductionHypothesis _ _ _) 1
    case neg =>
      rw [split_cons feed, List.count_cons_of_ne feed]
      exact inductionHypothesis _ _ _

end SourceLine

namespace Window

/-- The blanks in front of a line are no more than the characters in front of any that is no
    blank. -/
theorem exists_indentation? {line : SourceLine} {front rest : List Char} {char : Char}
    (parts : line.text = front ++ char :: rest) (shown : Text.isBlank char = false) :
    ∃ indentation, indentation? line = some indentation ∧
      indentation ≤ front.length + 3 * front.count '\t' := by
  have some : ¬ line.text.all Text.isBlank = true := by
    simp [parts, shown]
  refine ⟨_, by rw [indentation?, if_neg some], ?_⟩
  rw [parts]
  clear parts some
  induction front with
  | nil => simp [shown]
  | cons first front inductionHypothesis =>
    by_cases blank : Text.isBlank first = true
    · rw [List.cons_append, List.takeWhile_cons_of_pos blank, List.map_cons, List.sum_cons,
        List.length_cons]
      by_cases tab : first = '\t'
      · rw [if_pos tab, tab, List.count_cons_self]
        omega
      · rw [if_neg tab, List.count_cons_of_ne tab]
        omega
    · simp [blank]

variable {lines : List MarkedLine} {following digits : Nat}

/-- Nothing is cut off from lines that have room in the window, if not all of them are set in by
    much. -/
theorem ofLines_uncut (labelSize : Nat)
    (sizes : ∀ marked ∈ lines, utf8Length marked.line.text + digits ≤ 137)
    (early : ∃ marked ∈ lines, ∃ indentation, indentation? marked.line = some indentation ∧
      indentation ≤ 26)
    (few : following < 10 ^ digits) (positive : 0 < digits) :
    (ofLines lines labelSize following).left = 0 ∧
      137 ≤ (ofLines lines labelSize following).width + digits := by
  have room : 137 ≤ rowWidth - (3 + (toString following).length) + digits := by
    have length := (Nat.length_toDigits_le_iff (by decide) positive).mpr few
    have known : (toString following).length = (Nat.toDigits 10 following).length := by
      rw [← String.length_toList, Nat.toString_eq_repr, Nat.toList_repr]
    rw [known, rowWidth]
    omega
  have near : ¬ greatestIndentation < ((lines.filterMap fun marked =>
      indentation? marked.line).min?.getD boundless) - Window.room := by
    obtain ⟨marked, member, indentation, found, small⟩ := early
    have listed : indentation ∈ lines.filterMap fun marked => indentation? marked.line :=
      List.mem_filterMap.mpr ⟨marked, member, found⟩
    have least := List.min?_getD_le_of_mem (k := boundless) listed
    rw [greatestIndentation, Window.room]
    omega
  have fits : max (((lines.map fun marked => utf8Length marked.line.text).max?).getD 0) 0 - 0 ≤
      rowWidth - (3 + (toString following).length) := by
    cases greatest : (lines.map fun marked => utf8Length marked.line.text).max? with
    | none => simp
    | some longest =>
      obtain ⟨marked, member, rfl⟩ := List.mem_map.mp (List.max?_mem greatest)
      have size := sizes marked member
      rw [Option.getD_some]
      omega
  unfold ofLines
  dsimp only
  rw [if_neg near, if_pos fits]
  exact ⟨rfl, room⟩

end Window

end ShaderSource
