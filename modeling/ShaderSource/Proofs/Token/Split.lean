import ShaderSource.Proofs.Token.Munch
import ShaderSource.Proofs.Token.Spacing

/-!
# How a text is split

From every place on a text is split by its longest pieces: a gap is passed over,
a token is taken, and where no pattern fits, reading stops with an error. Here
this is a relation that knows nothing but the patterns. Every text is split in
one way only, and these are the items that the reader gives one by one.
-/

namespace ShaderSource

open Lexeme

namespace Lexer

/-- How many more items may come at the most. -/
def remaining (lexer : Lexer) : Nat := if lexer.failed then 0 else lexer.rest.length + 1

/-- After an error no more items come. -/
theorem failed_of_read {chars : List Char} {offset : Nat} {error : LexError} {after : Lexer}
    (stopped : read chars offset = some (.error error, after)) :
    after.failed = true ∧ ∃ found rest place, error = errorAt found rest place := by
  fun_induction read chars offset with
  | case1 => simp at stopped
  | case2 offset char tail nothing =>
    obtain ⟨same, rfl⟩ := Prod.mk.inj (Option.some.inj stopped)
    exact ⟨rfl, char, tail, offset, (Except.error.inj same).symm⟩
  | case3 offset char tail length piece rest next found inductionHypothesis =>
    exact inductionHypothesis stopped
  | case4 => simp at stopped

/-- Each item brings a reader closer to its end. -/
theorem remaining_lt {lexer after : Lexer} {item : Except LexError Token}
    (given : lexer.next? = some (item, after)) : after.remaining < lexer.remaining := by
  unfold next? at given
  split at given
  case isTrue => simp at given
  case isFalse going =>
    rw [remaining, remaining, if_neg going]
    cases item with
    | error error =>
      rw [if_pos (failed_of_read given).1]
      exact Nat.succ_pos _
    | ok token =>
      have shorter := read_shortens given
      split
      case isTrue => exact Nat.succ_pos _
      case isFalse => omega

/-- The items that a reader gives one by one, up to its end. -/
def items (lexer : Lexer) : List (Except LexError Token) :=
  match _given : lexer.next? with
  | none => []
  | some (item, after) => item :: items after
termination_by lexer.remaining
decreasing_by exact remaining_lt (by assumption)

/-- A lexer at its end has no items. -/
theorem items_of_none {lexer : Lexer} (ended : lexer.next? = none) : lexer.items = [] := by
  rw [items]
  split
  case h_1 => rfl
  case h_2 given => simp [ended] at given

/-- The items of a lexer are the next one and those behind it. -/
theorem items_of_some {lexer after : Lexer} {item : Except LexError Token}
    (given : lexer.next? = some (item, after)) : lexer.items = item :: after.items := by
  rw [items]
  split
  case h_1 ended => simp [given] at ended
  case h_2 item' after' given' =>
    obtain ⟨rfl, rfl⟩ := Prod.mk.inj (Option.some.inj (given.symm.trans given'))
    rfl

/-- Readers with the same next item give the same items. -/
theorem items_congr {lexer other : Lexer} (same : lexer.next? = other.next?) :
    lexer.items = other.items := by
  cases given : lexer.next? with
  | none => rw [items_of_none given, items_of_none (same.symm.trans given)]
  | some result =>
    obtain ⟨item, after⟩ := result
    rw [items_of_some given, items_of_some (same.symm.trans given)]

end Lexer

namespace Longest

variable {piece rest : List Char} {pattern : Pattern}

/-- The longest text is found with at least one character, and the rest stands behind it. -/
theorem exists_split (longest : Longest (piece ++ rest) piece pattern) :
    ∃ char tail length, piece ++ rest = char :: tail ∧
      longest? (char :: tail) = some (pattern.lexeme, length + 1) ∧
      (char :: tail).take (length + 1) = piece ∧ tail.drop length = rest := by
  obtain ⟨length, found, taken⟩ := longest.exists_found
  have left : (piece ++ rest).drop length = rest := by
    have whole := List.take_append_drop length (piece ++ rest)
    rw [taken] at whole
    exact List.append_cancel_left whole
  cases shown : piece ++ rest with
  | nil => exact absurd (List.append_eq_nil_iff.mp shown).1 longest.filled
  | cons char tail =>
    rw [shown] at found taken left
    cases length with
    | zero => exact absurd taken.symm longest.filled
    | succ length => exact ⟨char, tail, length, rfl, found, taken, left⟩

/-- A gap is passed over. -/
theorem read_gap (longest : Longest (piece ++ rest) piece pattern) (skipped : pattern.lexeme = .gap)
    (offset : Nat) :
    Lexer.read (piece ++ rest) offset = Lexer.read rest (offset + utf8Length piece) := by
  obtain ⟨char, tail, length, shown, found, taken, left⟩ := longest.exists_split
  rw [skipped] at found
  rw [shown, Lexer.read, found]
  simp only [taken, Nat.add_sub_cancel, left]

/-- A token is taken with its class and its place. -/
theorem read_token {kind : TokenKind} (longest : Longest (piece ++ rest) piece pattern)
    (classified : pattern.lexeme = .token kind) (offset : Nat) :
    Lexer.read (piece ++ rest) offset =
      some (.ok ⟨kind, String.ofList piece, ⟨offset, offset + utf8Length piece⟩⟩,
        ⟨rest, offset + utf8Length piece, false⟩) := by
  obtain ⟨char, tail, length, shown, found, taken, left⟩ := longest.exists_split
  rw [classified] at found
  rw [shown, Lexer.read, found]
  simp only [taken, Nat.add_sub_cancel, left]

end Longest

/-- No piece is found where none fits. -/
theorem Unfit.read {found : Char} {rest : List Char} (unfit : Unfit (found :: rest))
    (offset : Nat) :
    Lexer.read (found :: rest) offset =
      some (.error (Lexer.errorAt found rest offset), ⟨found :: rest, offset, true⟩) := by
  rw [Lexer.read, longest?_eq_none_iff.mpr unfit]

/-- The items of a text from a place on. The longest text that fits a pattern is passed over if
    the pattern is that of a gap, and otherwise it is a token of the class of the pattern. -/
inductive Split : List Char → Nat → List (Except LexError Token) → Prop
  | done {offset : Nat} : Split [] offset []
  | gap {piece rest : List Char} {pattern : Pattern} {offset : Nat}
      {items : List (Except LexError Token)} (longest : Longest (piece ++ rest) piece pattern)
      (skipped : pattern.lexeme = .gap) (later : Split rest (offset + utf8Length piece) items) :
      Split (piece ++ rest) offset items
  | token {piece rest : List Char} {pattern : Pattern} {kind : TokenKind} {offset : Nat}
      {items : List (Except LexError Token)} (longest : Longest (piece ++ rest) piece pattern)
      (classified : pattern.lexeme = .token kind)
      (later : Split rest (offset + utf8Length piece) items) :
      Split (piece ++ rest) offset
        (.ok ⟨kind, String.ofList piece, ⟨offset, offset + utf8Length piece⟩⟩ :: items)
  | stuck {found : Char} {rest : List Char} {offset : Nat} (unfit : Unfit (found :: rest)) :
      Split (found :: rest) offset [.error (Lexer.errorAt found rest offset)]

namespace Split

variable {chars : List Char} {offset : Nat} {items : List (Except LexError Token)}

/-- The reader gives the items of the split. -/
theorem items_eq (split : Split chars offset items) :
    (⟨chars, offset, false⟩ : Lexer).items = items := by
  induction split with
  | done => exact Lexer.items_of_none (by simp [Lexer.next?, Lexer.read])
  | gap longest skipped _ inductionHypothesis =>
    rw [← inductionHypothesis]
    exact Lexer.items_congr (longest.read_gap skipped _)
  | token longest classified _ inductionHypothesis =>
    rw [← inductionHypothesis]
    exact Lexer.items_of_some (longest.read_token classified _)
  | @stuck found rest offset unfit =>
    have given : Lexer.next? ⟨found :: rest, offset, false⟩ =
        some (.error (Lexer.errorAt found rest offset), ⟨found :: rest, offset, true⟩) :=
      unfit.read offset
    rw [Lexer.items_of_some given, Lexer.items_of_none rfl]

/-- Every text is split in some way. The induction is on its length, since every piece has a
    character. -/
theorem exists_items (chars : List Char) (offset : Nat) : ∃ items, Split chars offset items := by
  induction size : chars.length using Nat.strongRecOn generalizing chars offset with
  | ind bound inductionHypothesis =>
    cases found : longest? chars with
    | none =>
      cases chars with
      | nil => exact ⟨[], .done⟩
      | cons char rest => exact ⟨_, .stuck (longest?_eq_none_iff.mp found)⟩
    | some result =>
      obtain ⟨piece, rest, pattern, rfl, longest⟩ := exists_piece_of_found found
      have shorter : rest.length < bound := by
        have positive := List.length_pos_iff.mpr longest.filled
        rw [List.length_append] at size
        omega
      obtain ⟨items, later⟩ :=
        inductionHypothesis rest.length shorter rest (offset + utf8Length piece) rfl
      cases classified : pattern.lexeme with
      | gap => exact ⟨items, .gap longest classified later⟩
      | token kind => exact ⟨_, .token longest classified later⟩

/-- A text is split in one way only, and the reader finds it. -/
theorem iff_items_eq : (⟨chars, offset, false⟩ : Lexer).items = items ↔ Split chars offset items := by
  constructor
  · intro given
    obtain ⟨items', split⟩ := exists_items chars offset
    rwa [← given, split.items_eq]
  · exact items_eq

end Split

/-- A comment is open exactly if no star in it has a slash behind it. -/
theorem Lexeme.blockCommentTail_eq_none_iff {chars : List Char} :
    blockCommentTail chars = none ↔ ¬ ['*', '/'] <:+: chars := by
  fun_induction blockCommentTail chars with
  | case1 => simp
  | case2 rest =>
    have closes : ['*', '/'] <:+: '*' :: '/' :: rest := ⟨[], rest, rfl⟩
    simp [closes]
  | case3 char chars open_ inductionHypothesis =>
    have apart : ¬ ['*', '/'] <+: char :: chars := by
      rintro ⟨rest, same⟩
      obtain ⟨rfl, rfl⟩ := List.cons.inj same
      exact open_ rest rfl rfl
    rw [Option.map_eq_none_iff, inductionHypothesis, List.infix_cons_iff]
    simp [apart]

namespace Split

variable {chars : List Char} {offset : Nat} {items : List (Except LexError Token)}

/-- A comment that is closed is passed over up to its first closing. -/
theorem comment_iff {body later : List Char} (open_ : ¬ ['*', '/'] <:+: body) :
    Split ('/' :: '*' :: (body ++ '*' :: '/' :: later)) offset items ↔
      Split later (offset + utf8Length ('/' :: '*' :: (body ++ ['*', '/']))) items := by
  have parts : '/' :: '*' :: (body ++ '*' :: '/' :: later) =
      '/' :: '*' :: (body ++ ['*', '/']) ++ later := by simp
  have found := longest?_closed (blockCommentTail_append open_ later)
  rw [parts] at found
  obtain ⟨pattern, skipped, longest⟩ := exists_longest_of_found found
  have size : ('/' :: '*' :: (body ++ ['*', '/'])).length = 2 + (body.length + 2) := by
    simp only [List.length_cons, List.length_append, List.length_nil]
    omega
  rw [List.take_left' size] at longest
  have same : Lexer.next? ⟨'/' :: '*' :: (body ++ ['*', '/']) ++ later, offset, false⟩ =
      Lexer.next? ⟨later, _, false⟩ := longest.read_gap skipped offset
  rw [parts, ← iff_items_eq, ← iff_items_eq, Lexer.items_congr same]

/-- Of a comment that is never closed the slash is an operator, and reading goes on at the star. -/
theorem unclosed_iff {rest : List Char} (open_ : ¬ ['*', '/'] <:+: rest) :
    Split ('/' :: '*' :: rest) offset items ↔
      ∃ later, Split ('*' :: rest) (offset + 1) later ∧
        items = .ok ⟨.operator, "/", ⟨offset, offset + 1⟩⟩ :: later := by
  have found : longest? (['/'] ++ '*' :: rest) = some (.token .operator, 1) := by
    simp only [List.cons_append, List.nil_append, longest?,
      blockCommentTail_eq_none_iff.mpr open_]
  obtain ⟨pattern, classified, longest⟩ := exists_longest_of_found found
  have given : Lexer.next? ⟨'/' :: '*' :: rest, offset, false⟩ = some _ :=
    longest.read_token classified offset
  rw [← iff_items_eq, Lexer.items_of_some given]
  constructor
  · rintro rfl
    exact ⟨_, iff_items_eq.mp rfl, rfl⟩
  · rintro ⟨later, split, rfl⟩
    rw [← iff_items_eq.mpr split]
    rfl

end Split

/-- A text is read by the longest pieces that fit a pattern: from each place on the longest one is
    passed over if its pattern is that of a gap, and otherwise it is a token of the class of its
    pattern. There is only one such pattern. Where no pattern fits, reading stops with an error.

    In particular a comment that is closed is passed over up to its first closing, and of one that
    is never closed the slash is an operator and reading goes on at the star. -/
theorem Lexer.items_eq_iff_split :
    (∀ (source : String) (items : List (Except LexError Token)),
      (ofSource source).items = items ↔ Split source.toList 0 items) ∧
    (∀ (chars piece : List Char) (pattern other : Pattern), Longest chars piece pattern →
      other ∈ Pattern.all → piece ∈ other.texts → other = pattern) ∧
    (∀ (body later : List Char) (offset : Nat) (items : List (Except LexError Token)),
      ¬ ['*', '/'] <:+: body →
        (Split ('/' :: '*' :: (body ++ '*' :: '/' :: later)) offset items ↔
          Split later (offset + utf8Length ('/' :: '*' :: (body ++ ['*', '/']))) items)) ∧
    (∀ (rest : List Char) (offset : Nat) (items : List (Except LexError Token)),
      ¬ ['*', '/'] <:+: rest →
        (Split ('/' :: '*' :: rest) offset items ↔
          ∃ later, Split ('*' :: rest) (offset + 1) later ∧
            items = .ok ⟨.operator, "/", ⟨offset, offset + 1⟩⟩ :: later)) := by
  refine ⟨fun source items => Split.iff_items_eq, ?unique, ?comment, ?unclosed⟩
  case unique =>
    intro chars piece pattern other longest declared fits
    exact Pattern.eq_of_mem declared longest.declared fits longest.fits
  case comment =>
    intro body later offset items open_
    exact Split.comment_iff open_
  case unclosed =>
    intro rest offset items open_
    exact Split.unclosed_iff open_

/-- A star that opens a comment does not close it too, and two signs of equality are one piece. -/
theorem Lexer.items_eq_iff_split_comments :
    (ofSource "/**/").items = [] ∧
    (∃ later, (ofSource "/*/").items = .ok ⟨.operator, "/", ⟨0, 1⟩⟩ :: later) ∧
    (∀ other ∈ Pattern.all, ['=', '='] ∈ other.texts →
      other = Pattern.ofSpelling .equality ['=', '=']) := by
  obtain ⟨split, unique, comment, unclosed⟩ := items_eq_iff_split
  refine ⟨?closed, ?unclosed, ?unique⟩
  case closed => exact (split _ _).mpr ((comment [] [] 0 [] (by decide)).mpr .done)
  case unclosed =>
    obtain ⟨later, behind⟩ := Split.exists_items ['*', '/'] 1
    exact ⟨later, (split _ _).mpr ((unclosed ['/'] 0 _ (by decide)).mpr ⟨later, behind, rfl⟩)⟩
  case unique =>
    have fixed : (['=', '='], TokenKind.equality) ∈ symbols := by decide
    have declared : Pattern.ofSpelling .equality ['=', '='] ∈ Pattern.all := by
      grind [Pattern.mem_all]
    intro other declared' fits
    refine unique ['=', '='] ['=', '='] _ other ⟨declared, rfl, nofun, List.prefix_rfl, ?_⟩
      declared' fits
    intro pattern _ text _ front
    exact front.length_le

end ShaderSource
