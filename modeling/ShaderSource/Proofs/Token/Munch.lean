import Mathlib.Data.List.Infix
import ShaderSource.Proofs.Token.Pattern

/-!
# The longest text that fits a pattern

In front of a text the reader looks for the longest piece that is a gap or a
token. What it finds is the longest text there that fits a pattern, and it finds
nothing only if no text there fits one.

Two facts about the patterns carry this. What fits a pattern is found as a whole
if nothing stands behind it, so no text fits two patterns. And whatever stands
behind it, nothing shorter is found.
-/

namespace ShaderSource

open Lexeme

namespace Lexeme

/-- A comment that is closed stays so, whatever stands behind it. -/
theorem blockCommentTail_extend {chars rest : List Char} {length : Nat}
    (found : blockCommentTail chars = some length) :
    blockCommentTail (chars ++ rest) = some length := by
  fun_induction blockCommentTail chars generalizing length with
  | case1 => simp at found
  | case2 => simpa [blockCommentTail] using found
  | case3 char chars open_ inductionHypothesis =>
    obtain ⟨inner, tail, rfl⟩ := Option.map_eq_some_iff.mp found
    rw [List.cons_append, blockCommentTail, inductionHypothesis tail]
    · rfl
    · rintro others rfl same
      cases chars with
      | nil => simp [blockCommentTail] at tail
      | cons next chars =>
        obtain ⟨rfl, _⟩ := List.cons.inj same
        exact open_ chars rfl rfl

/-- A comment ends inside its text, and what follows it has no part in that. -/
theorem blockCommentTail_take {chars : List Char} {length : Nat}
    (found : blockCommentTail chars = some length) :
    length ≤ chars.length ∧ blockCommentTail (chars.take length) = some length := by
  fun_induction blockCommentTail chars generalizing length with
  | case1 => simp at found
  | case2 rest =>
    obtain rfl := Option.some.inj found
    simp [blockCommentTail]
  | case3 char chars open_ inductionHypothesis =>
    obtain ⟨inner, tail, rfl⟩ := Option.map_eq_some_iff.mp found
    obtain ⟨bound, again⟩ := inductionHypothesis tail
    constructor
    · simpa using bound
    · rw [List.take_succ_cons, blockCommentTail, again]
      · rfl
      · rintro others rfl same
        have whole : chars = '/' :: others ++ chars.drop inner := by
          rw [← same, List.take_append_drop]
        exact open_ _ rfl whole

/-- A run is at least as long as what it is known to hold. -/
theorem length_le_runLength_append {property : Char → Bool} {run : List Char}
    (all : run.all property = true) (rest : List Char) : run.length ≤ runLength property (run ++ rest) := by
  rw [runLength, List.takeWhile_append_of_pos (by simpa using all), List.length_append]
  omega

/-- A run that is all there is ends with the text. -/
theorem runLength_all {property : Char → Bool} {run : List Char}
    (all : run.all property = true) : runLength property run = run.length := by
  have ended : runLength property (run ++ []) = run.length := runLength_append all rfl
  rwa [List.append_nil] at ended

/-- Digits, a point and at least one more digit are the front of a float. -/
theorem number?_point {whole rest : List Char} (digits : whole.all Char.isDigit = true)
    (fraction : 0 < runLength Char.isDigit rest) :
    number? (whole ++ '.' :: rest) =
      some (.float, whole.length + 1 + runLength Char.isDigit rest) := by
  have run : runLength Char.isDigit (whole ++ '.' :: rest) = whole.length :=
    runLength_append digits rfl
  simp only [number?, run, List.drop_left, fraction, if_true]

/-- Digits are the front of a number. -/
theorem exists_number? {digits rest : List Char} (written : integerText digits = true) :
    ∃ kind length, number? (digits ++ rest) = some (kind, length) ∧ digits.length ≤ length := by
  simp only [integerText, Bool.and_eq_true, Bool.not_eq_true', List.isEmpty_eq_false_iff] at written
  obtain ⟨filled, digits⟩ := written
  have bound := length_le_runLength_append digits rest
  have positive := List.length_pos_iff.mpr filled
  unfold number?
  extract_lets whole fraction
  split
  case isTrue => exact ⟨_, _, rfl, by omega⟩
  case isFalse =>
    rw [if_pos (Nat.lt_of_lt_of_le positive bound)]
    exact ⟨_, _, rfl, bound⟩

/-- The front of a text that begins as a number is read at least as far as it is one. -/
theorem exists_longest?_number {text rest : List Char} {bound : Nat}
    (begins : ∃ first others, text = first :: others ∧ (first.isDigit = true ∨ first = '.'))
    (found : ∃ kind length, number? (text ++ rest) = some (kind, length) ∧ bound ≤ length) :
    ∃ lexeme length, longest? (text ++ rest) = some (lexeme, length) ∧ bound ≤ length := by
  obtain ⟨first, others, rfl, begins⟩ := begins
  obtain ⟨kind, length, found, reaches⟩ := found
  exact ⟨.token kind, length, longest?_number begins found, reaches⟩

/-- In front of any text a fixed spelling is read, or something longer that begins with it. -/
theorem exists_longest?_symbol {spelling : List Char} {kind : TokenKind}
    (fixed : (spelling, kind) ∈ symbols) (rest : List Char) :
    ∃ lexeme length, longest? (spelling ++ rest) = some (lexeme, length) ∧
      spelling.length ≤ length := by
  by_cases ends : ∀ symbol next, spelling = [symbol] → rest.head? = some next →
      continuesSymbol symbol next = false
  · exact ⟨_, _, longest?_symbol fixed ends, Nat.le_refl _⟩
  · -- The sign behind a spelling of one character makes a longer piece of it.
    push Not at ends
    obtain ⟨symbol, next, rfl, following, continues⟩ := ends
    obtain ⟨others, rfl⟩ : ∃ others, rest = next :: others := by
      cases rest with
      | nil => simp at following
      | cons first others =>
        obtain rfl : first = next := by simpa using following
        exact ⟨others, rfl⟩
    simp only [ne_eq, Bool.not_eq_false, continuesSymbol, Bool.or_eq_true, Bool.and_eq_true,
      List.any_eq_true, beq_iff_eq] at continues
    rcases continues with (⟨⟨double, kind'⟩, member, same⟩ | ⟨rfl, comment⟩) | ⟨rfl, digit⟩
    · obtain rfl : double = [symbol, next] := same
      exact ⟨_, _, longest?_double others member, by simp⟩
    · rcases comment with rfl | rfl
      · exact ⟨.gap, _, rfl, Nat.le_add_right_of_le (by simp)⟩
      · simp only [List.cons_append, List.nil_append, longest?]
        split
        case h_1 => exact ⟨_, _, rfl, Nat.le_add_right_of_le (by simp)⟩
        case h_2 => exact ⟨_, _, rfl, Nat.le_refl 1⟩
    · have fraction : 0 < runLength Char.isDigit (next :: others) := by
        simp [runLength, digit]
      have number : number? ([] ++ '.' :: next :: others) = _ := number?_point rfl fraction
      exact ⟨_, _, longest?_number (.inr rfl) number, by simp⟩

/-- Blanks are skipped as far as they go. -/
theorem longest?_blank {char : Char} (blank : Text.isBlank char = true) (rest : List Char) :
    longest? (char :: rest) = some (.gap, 1 + runLength Text.isBlank rest) := by
  have noSlash : char ≠ '/' := by rintro rfl; exact absurd blank (by decide)
  have noQuote : char ≠ '"' := by rintro rfl; exact absurd blank (by decide)
  rw [longest?_plain noSlash noQuote, if_pos blank]

/-- A comment that is closed is the longest text that fits. -/
theorem longest?_closed {rest : List Char} {length : Nat}
    (closed : blockCommentTail rest = some length) :
    longest? ('/' :: '*' :: rest) = some (.gap, 2 + length) := by
  simp only [longest?, closed]

end Lexeme

namespace Pattern

variable {pattern other : Pattern} {text : List Char}

/-- A text that fits a pattern is a lexical piece of the class of the pattern, or a gap. -/
theorem lexical_or_gap (declared : pattern ∈ all) (fits : text ∈ pattern.texts) :
    (∃ kind, pattern.lexeme = .token kind ∧
      (⟨kind, String.ofList text⟩ : Piece).isLexical = true) ∨
    pattern.lexeme = .gap ∧ (text ∈ blanks ∨ text ∈ lineComment ∨ text ∈ blockComment) := by
  rcases mem_all.mp declared with
    rfl | rfl | rfl | rfl | rfl | rfl | ⟨kind, spelling, fixed, rfl⟩ | rfl
  · exact .inr ⟨rfl, .inl fits⟩
  · exact .inr ⟨rfl, .inr (.inl fits)⟩
  · exact .inr ⟨rfl, .inr (.inr fits)⟩
  · exact .inl ⟨_, rfl, by simpa [Piece.isLexical] using mem_identifier.mp fits⟩
  · exact .inl ⟨_, rfl, by simpa [Piece.isLexical] using mem_integer.mp fits⟩
  · exact .inl ⟨_, rfl, by simpa [Piece.isLexical] using mem_float.mp fits⟩
  · obtain rfl : text = spelling := fits
    exact .inl ⟨_, rfl, isLexical_symbol fixed⟩
  · exact .inl ⟨_, rfl, by simpa [Piece.isLexical] using mem_quotation.mp fits⟩

/-- What fits a pattern is found as a whole if nothing stands behind it. -/
theorem longest?_self (declared : pattern ∈ all) (fits : text ∈ pattern.texts) :
    longest? text = some (pattern.lexeme, text.length) := by
  rcases lexical_or_gap declared fits with ⟨kind, classified, lexical⟩ | ⟨skipped, gap⟩
  · rw [classified]
    simpa using Piece.longest?_eq lexical (Piece.endsBefore_nil _)
  · rw [skipped]
    rcases gap with blank | line | block
    · obtain ⟨filled, blank⟩ := mem_blanks.mp blank
      cases text with
      | nil => exact absurd rfl filled
      | cons char rest =>
        simp only [List.all_cons, Bool.and_eq_true] at blank
        have run : runLength Text.isBlank (rest ++ []) = rest.length := runLength_append blank.2 rfl
        rw [List.append_nil] at run
        rw [longest?_blank blank.1, run, List.length_cons, Nat.add_comm]
    · obtain ⟨rest, rfl, single⟩ := mem_lineComment.mp line
      simp only [longest?, runLength_all single, List.length_cons, Nat.add_comm 2]
    · obtain ⟨rest, rfl, closed⟩ := mem_blockComment.mp block
      simp only [longest?_closed closed, List.length_cons, Nat.add_comm 2]

/-- In front of any text, what fits a pattern is read, or something longer that begins with it. -/
theorem exists_longest? (declared : pattern ∈ all) (fits : text ∈ pattern.texts)
    (rest : List Char) :
    ∃ lexeme length, longest? (text ++ rest) = some (lexeme, length) ∧ text.length ≤ length := by
  rcases mem_all.mp declared with
    rfl | rfl | rfl | rfl | rfl | rfl | ⟨kind, spelling, fixed, rfl⟩ | rfl
  · obtain ⟨filled, blank⟩ := mem_blanks.mp fits
    cases text with
    | nil => exact absurd rfl filled
    | cons char others =>
      simp only [List.all_cons, Bool.and_eq_true] at blank
      have bound := length_le_runLength_append blank.2 rest
      refine ⟨_, _, longest?_blank blank.1 (others ++ rest), ?_⟩
      rw [List.length_cons]
      omega
  · obtain ⟨others, rfl, single⟩ := mem_lineComment.mp fits
    have bound := length_le_runLength_append single rest
    refine ⟨.gap, 2 + runLength (· != '\n') (others ++ rest), rfl, ?_⟩
    simp only [List.length_cons]
    omega
  · obtain ⟨others, rfl, closed⟩ := mem_blockComment.mp fits
    exact ⟨_, _, longest?_closed (blockCommentTail_extend closed),
      by simp only [List.length_cons]; omega⟩
  · have written := mem_identifier.mp fits
    cases text with
    | nil => simp [identifierText] at written
    | cons first others =>
      simp only [identifierText, Bool.and_eq_true] at written
      have bound := length_le_runLength_append written.2 rest
      refine ⟨_, _, longest?_name written.1 (others ++ rest), ?_⟩
      rw [List.length_cons]
      omega
  · have written := mem_integer.mp fits
    refine exists_longest?_number ?_ (exists_number? written)
    cases text with
    | nil => simp [integerText] at written
    | cons first others =>
      simp only [integerText, List.all_cons, Bool.and_eq_true] at written
      exact ⟨first, others, rfl, .inl written.2.1⟩
  · obtain ⟨whole, fraction, rfl, digits, further⟩ := exists_parts_of_mem_float fits
    simp only [integerText, Bool.and_eq_true, Bool.not_eq_true', List.isEmpty_eq_false_iff] at further
    have bound := length_le_runLength_append further.2 rest
    have positive := List.length_pos_iff.mpr further.1
    have found := number?_point digits (Nat.lt_of_lt_of_le positive bound)
    refine exists_longest?_number ?_ ⟨_, _, by rw [List.append_assoc]; exact found, ?_⟩
    · cases whole with
      | nil => exact ⟨'.', fraction, rfl, .inr rfl⟩
      | cons first others =>
        simp only [List.all_cons, Bool.and_eq_true] at digits
        exact ⟨first, _, rfl, .inl digits.1⟩
    · simp only [List.length_append, List.length_cons]
      omega
  · obtain rfl : text = spelling := fits
    exact exists_longest?_symbol fixed rest
  · exact ⟨_, _, longest?_string (mem_quotation.mp fits), Nat.le_refl _⟩

/-- Every lexical piece fits a pattern of its class. -/
theorem exists_of_lexical {kind : TokenKind}
    (lexical : (⟨kind, String.ofList text⟩ : Piece).isLexical = true) :
    ∃ pattern ∈ all, pattern.lexeme = .token kind ∧ text ∈ pattern.texts := by
  by_cases fixed : kind.isFixed = true
  · have member : (text, kind) ∈ symbols := by simpa using Piece.mem_symbols lexical fixed
    exact ⟨ofSpelling kind text, by grind [mem_all], rfl, rfl⟩
  · simp only [Piece.isLexical, String.toList_ofList] at lexical
    cases kind with
    | identifier => exact ⟨⟨_, identifier⟩, by simp [all], rfl, mem_identifier.mpr lexical⟩
    | integer => exact ⟨⟨_, integer⟩, by simp [all], rfl, mem_integer.mpr lexical⟩
    | float => exact ⟨⟨_, float⟩, by simp [all], rfl, mem_float.mpr lexical⟩
    | string => exact ⟨⟨_, quotation⟩, by simp [all], rfl, mem_quotation.mpr lexical⟩
    | _ => exact absurd rfl fixed

/-- What is found in front of a text fits a pattern that says what it is. -/
theorem exists_of_longest? {chars : List Char} {lexeme : Lexeme} {length : Nat}
    (found : longest? chars = some (lexeme, length)) :
    ∃ pattern ∈ all, pattern.lexeme = lexeme ∧ chars.take length ∈ pattern.texts := by
  cases lexeme with
  | token kind => exact exists_of_lexical (longest?_lexical found)
  | gap =>
    revert found
    fun_cases longest? chars with
    | case1 => simp
    | case2 rest =>
      intro found
      simp only [Option.some.injEq, Prod.mk.injEq, true_and] at found
      refine ⟨⟨.gap, lineComment⟩, by simp [all], rfl, mem_lineComment.mpr ?_⟩
      rw [← found, Nat.add_comm, List.take_succ_cons, List.take_succ_cons, take_runLength]
      exact ⟨_, rfl, List.all_takeWhile⟩
    | case3 rest inner closed =>
      intro found
      simp only [Option.some.injEq, Prod.mk.injEq, true_and] at found
      obtain ⟨bound, again⟩ := blockCommentTail_take closed
      refine ⟨⟨.gap, blockComment⟩, by simp [all], rfl, mem_blockComment.mpr ?_⟩
      rw [← found, Nat.add_comm, List.take_succ_cons, List.take_succ_cons]
      exact ⟨_, rfl, by rw [again, List.length_take, Nat.min_eq_left bound]⟩
    | case4 => simp
    | case5 rest => simp
    | case6 char rest _ _ _ blank =>
      intro found
      simp only [Option.some.injEq, Prod.mk.injEq, true_and] at found
      refine ⟨⟨.gap, blanks⟩, by simp [all], rfl, mem_blanks.mpr ?_⟩
      rw [← found, Nat.add_comm, List.take_succ_cons, take_runLength]
      exact ⟨List.cons_ne_nil _ _, by simp [blank]⟩
    | case7 => simp
    | case8 => simp
    | case9 => simp

/-- The only pattern that a gap or a token of a class can fit by its text. -/
def textsAt : Lexeme → List Char → Language Char
  | .gap, '/' :: '/' :: _ => lineComment
  | .gap, '/' :: _ => blockComment
  | .gap, _ => blanks
  | .token .identifier, _ => identifier
  | .token .integer, _ => integer
  | .token .float, _ => float
  | .token .string, _ => quotation
  | .token _, text => spelt text

/-- A text tells the pattern of its class that it fits. -/
theorem texts_eq_textsAt (declared : pattern ∈ all) (fits : text ∈ pattern.texts) :
    pattern.texts = textsAt pattern.lexeme text := by
  rcases mem_all.mp declared with
    rfl | rfl | rfl | rfl | rfl | rfl | ⟨kind, spelling, fixed, rfl⟩ | rfl
  · obtain ⟨filled, blank⟩ := mem_blanks.mp fits
    cases text with
    | nil => exact absurd rfl filled
    | cons char rest =>
      simp only [List.all_cons, Bool.and_eq_true] at blank
      have noSlash : char ≠ '/' := by rintro rfl; exact absurd blank.1 (by decide)
      simp [textsAt, noSlash]
  · obtain ⟨rest, rfl, _⟩ := mem_lineComment.mp fits
    rfl
  · obtain ⟨rest, rfl, _⟩ := mem_blockComment.mp fits
    rfl
  · rfl
  · rfl
  · rfl
  · obtain rfl : text = spelling := fits
    have apart : ∀ entry ∈ symbols, entry.2.isFixed = true := by decide
    have known : kind.isFixed = true := apart _ fixed
    cases kind with
    | identifier | integer | float | string => exact Bool.noConfusion known
    | _ => rfl
  · rfl

/-- No text fits two patterns. -/
theorem eq_of_mem (declared : pattern ∈ all) (declared' : other ∈ all)
    (fits : text ∈ pattern.texts) (fits' : text ∈ other.texts) : pattern = other := by
  have lexeme : pattern.lexeme = other.lexeme := by
    have same := (longest?_self declared fits).symm.trans (longest?_self declared' fits')
    exact (Prod.mk.inj (Option.some.inj same)).1
  have texts : pattern.texts = other.texts := by
    rw [texts_eq_textsAt declared fits, texts_eq_textsAt declared' fits', lexeme]
  cases pattern
  cases other
  exact congr (congrArg mk lexeme) texts

/-- No pattern is fitted by the empty text. -/
theorem ne_nil_of_mem (declared : pattern ∈ all) (fits : text ∈ pattern.texts) : text ≠ [] := by
  rintro rfl
  exact absurd (longest?_self declared fits) nofun

end Pattern

/-- A text is the longest one in front of some characters that fits a pattern. -/
structure Longest (chars piece : List Char) (pattern : Pattern) : Prop where
  declared : pattern ∈ Pattern.all
  fits : piece ∈ pattern.texts
  filled : piece ≠ []
  front : piece <+: chars
  longest : ∀ other ∈ Pattern.all, ∀ text ∈ other.texts, text <+: chars →
    text.length ≤ piece.length

/-- No text in front of some characters fits a pattern. -/
def Unfit (chars : List Char) : Prop :=
  ∀ pattern ∈ Pattern.all, ∀ text ∈ pattern.texts, ¬ text <+: chars

namespace Lexeme

variable {chars : List Char} {lexeme : Lexeme} {length : Nat}

/-- What is found in front of some characters is the longest text there that fits a pattern. -/
theorem exists_longest_of_found (found : longest? chars = some (lexeme, length)) :
    ∃ pattern, pattern.lexeme = lexeme ∧ Longest chars (chars.take length) pattern := by
  obtain ⟨pattern, declared, classified, fits⟩ := Pattern.exists_of_longest? found
  refine ⟨pattern, classified, declared, fits, Pattern.ne_nil_of_mem declared fits,
    List.take_prefix _ _, ?_⟩
  rintro other declared' text fits' ⟨rest, rfl⟩
  obtain ⟨lexeme', length', found', reaches⟩ := Pattern.exists_longest? declared' fits' rest
  obtain ⟨rfl, rfl⟩ := Prod.mk.inj (Option.some.inj (found'.symm.trans found))
  rw [List.length_take, List.length_append]
  exact Nat.le_min.mpr ⟨reaches, Nat.le_add_right _ _⟩

/-- Where something is found, the text begins with the longest piece that fits a pattern. -/
theorem exists_piece_of_found (found : longest? chars = some (lexeme, length)) :
    ∃ piece rest pattern, chars = piece ++ rest ∧ Longest (piece ++ rest) piece pattern := by
  obtain ⟨pattern, _, longest⟩ := exists_longest_of_found found
  have whole := List.take_append_drop length chars
  exact ⟨chars.take length, chars.drop length, pattern, whole.symm, whole.symm ▸ longest⟩

/-- Nothing is found exactly if no text there fits a pattern. -/
theorem longest?_eq_none_iff : longest? chars = none ↔ Unfit chars := by
  constructor
  · rintro nothing pattern declared text fits ⟨rest, rfl⟩
    obtain ⟨_, _, found, _⟩ := Pattern.exists_longest? declared fits rest
    rw [nothing] at found
    exact absurd found nofun
  · intro unfit
    cases found : longest? chars with
    | none => rfl
    | some result =>
      obtain ⟨pattern, declared, _, fits⟩ := Pattern.exists_of_longest? found
      exact absurd (List.take_prefix _ _) (unfit pattern declared _ fits)

end Lexeme

namespace Longest

variable {chars piece piece' : List Char} {pattern pattern' : Pattern}

/-- Only one text is the longest. -/
theorem eq (longest : Longest chars piece pattern) (longest' : Longest chars piece' pattern') :
    piece = piece' := by
  have atMost := longest'.longest pattern longest.declared piece longest.fits longest.front
  have atLeast := longest.longest pattern' longest'.declared piece' longest'.fits longest'.front
  exact (List.prefix_of_prefix_length_le longest.front longest'.front atMost).eq_of_length
    (Nat.le_antisymm atMost atLeast)

/-- The longest text is what is found. -/
theorem exists_found (longest : Longest chars piece pattern) :
    ∃ length, longest? chars = some (pattern.lexeme, length) ∧ chars.take length = piece := by
  cases found : longest? chars with
  | none =>
    exact absurd longest.front
      (longest?_eq_none_iff.mp found pattern longest.declared piece longest.fits)
  | some result =>
    obtain ⟨lexeme, length⟩ := result
    obtain ⟨pattern', rfl, longest'⟩ := exists_longest_of_found found
    obtain rfl := longest.eq longest'
    have same : pattern = pattern' :=
      Pattern.eq_of_mem longest.declared longest'.declared longest.fits longest'.fits
    exact ⟨length, by rw [same], rfl⟩

end Longest

end ShaderSource
