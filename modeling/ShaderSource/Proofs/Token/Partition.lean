import ShaderSource.Proofs.Token.Split

/-!
# Nothing of a text is lost

The tokens of a text and the gaps between them make up the text, up to the place
where reading stopped. Each token stands at its span and each gap is made of
blanks and comments. What stands behind this place has no part in the tokens: a
piece that is the longest one in a text is so in any part of it that holds it.
-/

namespace ShaderSource

open Lexeme
open scoped Computability

/-- A span cuts a text out of a source: it goes from the place of its first character to the place
    behind its last one. -/
def Span.Cuts (span : Span) (source text : List Char) : Prop :=
  ∃ before after, source = before ++ text ++ after ∧ span.start = utf8Length before ∧
    span.stop = utf8Length (before ++ text)

/-- Blanks or a comment. -/
def Lexeme.gapTexts : Language Char := blanks + lineComment + blockComment

/-- The spans before, between and behind some tokens, from a place up to another one. -/
def Token.gaps (start stop : Nat) : List Token → List Span
  | [] => [⟨start, stop⟩]
  | first :: later => ⟨start, first.span.start⟩ :: gaps first.span.stop stop later

/-- Some characters consist of tokens, one behind the other at their places, and of gaps. -/
inductive Partition : List Char → Nat → List Token → Prop
  | done {offset : Nat} : Partition [] offset []
  | gap {text later : List Char} {offset : Nat} {tokens : List Token} (free : text ∈ gapTexts)
      (behind : Partition later (offset + utf8Length text) tokens) :
      Partition (text ++ later) offset tokens
  | token {kind : TokenKind} {text later : List Char} {offset : Nat} {tokens : List Token}
      (filled : text ≠ []) (behind : Partition later (offset + utf8Length text) tokens) :
      Partition (text ++ later) offset
        (⟨kind, String.ofList text, ⟨offset, offset + utf8Length text⟩⟩ :: tokens)

/-- Characters take up room. -/
theorem utf8Length_pos {chars : List Char} (filled : chars ≠ []) : 0 < utf8Length chars := by
  cases chars with
  | nil => exact absurd rfl filled
  | cons char rest =>
    rw [utf8Length_cons]
    exact Nat.lt_of_lt_of_le char.utf8Size_pos (Nat.le_add_right _ _)

namespace Partition

variable {chars : List Char} {offset : Nat} {tokens : List Token}

/-- Each token has a span of its own inside the characters. -/
theorem inside (partition : Partition chars offset tokens) : ∀ token ∈ tokens,
    offset ≤ token.span.start ∧ token.span.start < token.span.stop ∧
      token.span.stop ≤ offset + utf8Length chars := by
  induction partition with
  | done => simp
  | gap free _ inductionHypothesis =>
    intro token member
    obtain ⟨lower, filled, upper⟩ := inductionHypothesis token member
    rw [utf8Length_append]
    exact ⟨by omega, filled, by omega⟩
  | token filled _ inductionHypothesis =>
    have positive := utf8Length_pos filled
    intro token member
    rw [utf8Length_append]
    rcases List.mem_cons.mp member with rfl | member
    · exact ⟨Nat.le_refl _, Nat.lt_add_of_pos_right positive,
        Nat.add_le_add_left (Nat.le_add_right _ _) _⟩
    · obtain ⟨lower, filled, upper⟩ := inductionHypothesis token member
      exact ⟨by omega, filled, by omega⟩

/-- A token ends before the later ones begin. -/
theorem increasing (partition : Partition chars offset tokens) :
    tokens.Pairwise fun token later => token.span.stop ≤ later.span.start := by
  induction partition with
  | done => exact .nil
  | gap _ _ inductionHypothesis => exact inductionHypothesis
  | token _ behind inductionHypothesis =>
    exact .cons (fun later member => (behind.inside later member).1) inductionHypothesis

/-- The text of each token stands at its span, whatever stands around the characters. -/
theorem held (partition : Partition chars offset tokens) (before after : List Char)
    (start : offset = utf8Length before) :
    ∀ token ∈ tokens, token.span.Cuts (before ++ chars ++ after) token.text.toList := by
  induction partition generalizing before with
  | done => simp
  | @gap text later offset tokens free _ inductionHypothesis =>
    have further := inductionHypothesis (before ++ text) (by rw [start, utf8Length_append])
    simpa only [List.append_assoc] using further
  | @token kind text later offset tokens filled _ inductionHypothesis =>
    have further := inductionHypothesis (before ++ text) (by rw [start, utf8Length_append])
    intro token member
    rcases List.mem_cons.mp member with rfl | member
    · refine ⟨before, later ++ after, ?_, start, ?_⟩
      · simp only [String.toList_ofList, List.append_assoc]
      · simp only [String.toList_ofList, start, utf8Length_append]
    · simpa only [List.append_assoc] using further token member

/-- What stands before, between and behind the tokens is blanks and comments. The induction keeps
    the part of a gap that was passed already. -/
theorem free (partition : Partition chars offset tokens) (before passed after : List Char)
    (gap : passed ∈ gapTexts∗) (start : offset = utf8Length (before ++ passed)) :
    ∀ span ∈ Token.gaps (utf8Length before) (offset + utf8Length chars) tokens,
      ∃ text ∈ gapTexts∗, span.Cuts (before ++ passed ++ chars ++ after) text := by
  induction partition generalizing before passed with
  | done =>
    simp only [Token.gaps, List.mem_singleton, forall_eq]
    exact ⟨passed, gap, before, after, by simp, rfl, start⟩
  | @gap text later offset tokens free _ inductionHypothesis =>
    have longer : passed ++ text ∈ gapTexts∗ :=
      Set.mem_of_subset_of_mem (kstar_mul_le_kstar (a := gapTexts)) (Language.append_mem_mul gap free)
    have further := inductionHypothesis before (passed ++ text) longer
      (by rw [start, ← List.append_assoc, utf8Length_append _ text])
    rw [Nat.add_assoc, ← utf8Length_append] at further
    simpa only [List.append_assoc] using further
  | @token kind text later offset tokens filled _ inductionHypothesis =>
    have further := inductionHypothesis (before ++ passed ++ text) [] (Language.nil_mem_kstar _)
      (by rw [start, List.append_nil, utf8Length_append _ text])
    rw [utf8Length_append _ text, ← start, Nat.add_assoc, ← utf8Length_append] at further
    intro span member
    rcases List.mem_cons.mp member with rfl | member
    · exact ⟨passed, gap, before, text ++ later ++ after, by simp, rfl, start⟩
    · simpa only [List.append_assoc, List.nil_append] using further span member

end Partition

namespace Longest

variable {piece rest : List Char} {pattern : Pattern}

/-- The longest piece of a text is so in any front of the text that holds it. -/
theorem shorten {chars later : List Char} (longest : Longest (piece ++ (chars ++ later)) piece pattern) :
    Longest (piece ++ chars) piece pattern where
  declared := longest.declared
  fits := longest.fits
  filled := longest.filled
  front := List.prefix_append _ _
  longest := by
    intro other declared text fits front
    refine longest.longest other declared text fits ?_
    rw [← List.append_assoc]
    exact front.trans (List.prefix_append _ _)

/-- What is passed over is blanks or a comment. -/
theorem mem_gapTexts (longest : Longest (piece ++ rest) piece pattern)
    (skipped : pattern.lexeme = .gap) : piece ∈ gapTexts := by
  rcases Pattern.lexical_or_gap longest.declared longest.fits with ⟨kind, classified, _⟩ | ⟨_, gap⟩
  · rw [skipped] at classified
    exact absurd classified nofun
  · rw [gapTexts, Language.mem_add, Language.mem_add, or_assoc]
    exact gap

/-- A token in front of a text stands before those of the text behind it. -/
theorem ofChars_token {kind : TokenKind} (longest : Longest (piece ++ rest) piece pattern)
    (classified : pattern.lexeme = .token kind) (offset : Nat) :
    Lexed.ofChars (piece ++ rest) offset =
      let later := Lexed.ofChars rest (offset + utf8Length piece)
      { later with tokens := ⟨kind, String.ofList piece, ⟨offset, offset + utf8Length piece⟩⟩ ::
          later.tokens } := by
  rw [Lexed.ofChars, longest.read_token classified offset]

end Longest

/-- A text is read up to a place. The part before it is partitioned, and it has the same tokens
    alone. -/
theorem Split.exists_partition {chars : List Char} {offset : Nat}
    {items : List (Except LexError Token)} (split : Split chars offset items) :
    ∃ front remainder tokens, chars = front ++ remainder ∧ Partition front offset tokens ∧
      Lexed.ofChars chars offset =
        ⟨tokens, String.ofList remainder, offset + utf8Length front⟩ ∧
      Lexed.ofChars front offset = ⟨tokens, "", offset + utf8Length front⟩ := by
  induction split with
  | @done offset => exact ⟨[], [], [], rfl, .done, Lexed.ofChars_nil offset, Lexed.ofChars_nil offset⟩
  | @gap piece rest pattern offset items longest skipped _ inductionHypothesis =>
    obtain ⟨front, remainder, tokens, rfl, partition, whole, alone⟩ := inductionHypothesis
    have read : Lexed.ofChars (piece ++ (front ++ remainder)) offset = _ :=
      Lexed.ofChars_skip piece (longest.read_gap skipped offset)
    have readAlone : Lexed.ofChars (piece ++ front) offset = _ :=
      Lexed.ofChars_skip piece (longest.shorten.read_gap skipped offset)
    refine ⟨piece ++ front, remainder, tokens, by simp,
      .gap (longest.mem_gapTexts skipped) partition, ?_, ?_⟩
    · rw [read, whole, utf8Length_append, Nat.add_assoc]
    · rw [readAlone, alone, utf8Length_append, Nat.add_assoc]
  | @token piece rest pattern kind offset items longest classified _ inductionHypothesis =>
    obtain ⟨front, remainder, tokens, rfl, partition, whole, alone⟩ := inductionHypothesis
    refine ⟨piece ++ front, remainder,
      ⟨kind, String.ofList piece, ⟨offset, offset + utf8Length piece⟩⟩ :: tokens, by simp,
      .token longest.filled partition, ?_, ?_⟩
    · rw [longest.ofChars_token classified, whole, utf8Length_append, Nat.add_assoc]
    · rw [longest.shorten.ofChars_token classified, alone, utf8Length_append, Nat.add_assoc]
  | @stuck found rest offset unfit =>
    refine ⟨[], found :: rest, [], rfl, .done, ?_, Lexed.ofChars_nil offset⟩
    rw [Lexed.ofChars, unfit.read offset]
    rfl

/-- The tokens of a text that was read, and the error that reading ended with. -/
def Lexed.items (lexed : Lexed) : List (Except LexError Token) :=
  lexed.tokens.map .ok ++
    match lexed.tokens? with
    | .ok _ => []
    | .error error => [.error error]

/-- A reader gives the tokens of its text one by one, and then the error that reading ends with. -/
theorem Lexer.items_ofChars (chars : List Char) (offset : Nat) :
    items ⟨chars, offset, false⟩ = (Lexed.ofChars chars offset).items := by
  fun_induction Lexed.ofChars chars offset with
  | case1 chars offset ended =>
    have none : next? ⟨chars, offset, false⟩ = none := ended
    rw [items_of_none none]
    rfl
  | case2 chars offset error after stopped =>
    have given : next? ⟨chars, offset, false⟩ = some (.error error, after) := stopped
    obtain ⟨failed, found, rest, place, rfl⟩ := failed_of_read stopped
    have none : next? after = none := by simp [next?, failed]
    rw [items_of_some given, items_of_none none]
    simp [Lexed.items, Lexed.tokens?, errorAt]
  | case3 chars offset token after taken later inductionHypothesis =>
    have given : next? ⟨chars, offset, false⟩ = some (.ok token, after) := taken
    have going : after = ⟨after.rest, after.offset, false⟩ := by
      rw [← (lexical_of_read taken).2]
    rw [items_of_some given, going, inductionHypothesis]
    simp only [Lexed.items, Lexed.tokens?, later, List.map_cons, List.cons_append]
    cases (Lexed.ofChars after.rest after.offset).remainder.toList <;> rfl

/-- The tokens of a text that was read as a whole are given, and no others. -/
theorem Lexed.tokens?_eq_ok_iff {lexed : Lexed} {tokens : List Token} :
    lexed.tokens? = .ok tokens ↔ lexed.remainder = "" ∧ tokens = lexed.tokens := by
  have empty : lexed.remainder = "" ↔ lexed.remainder.toList = [] := by simp
  rw [empty, tokens?]
  cases lexed.remainder.toList with
  | nil => simp [eq_comm]
  | cons found rest => simp

/-- An error is at the first character of what was not read. -/
theorem Lexed.exists_of_tokens?_error {lexed : Lexed} {error : LexError}
    (failed : lexed.tokens? = .error error) :
    ∃ rest, lexed.remainder.toList = error.found :: rest ∧
      error = Lexer.errorAt error.found rest lexed.offset ∧ error.remainder = lexed.remainder := by
  rw [tokens?] at failed
  cases shown : lexed.remainder.toList with
  | nil => simp [shown] at failed
  | cons found rest =>
    rw [shown] at failed
    obtain rfl := Except.error.inj failed
    refine ⟨rest, rfl, rfl, ?_⟩
    rw [← String.ofList_toList (s := lexed.remainder), shown]
    rfl

/-- What was read of a source is parted into tokens and gaps, and the rest is kept as it is. -/
structure Lexed.Lossless (source : String) (lexed : Lexed) : Prop where
  /-- Each token has a span of its own in the part that was read. -/
  inside : ∀ token ∈ lexed.tokens,
    token.span.start < token.span.stop ∧ token.span.stop ≤ lexed.offset
  increasing : lexed.tokens.Pairwise fun token later => token.span.stop ≤ later.span.start
  /-- The text of each token stands at its span. -/
  held : ∀ token ∈ lexed.tokens, token.span.Cuts source.toList token.text.toList
  /-- What stands between the tokens is blanks and comments. -/
  free : ∀ span ∈ Token.gaps 0 lexed.offset lexed.tokens,
    ∃ text ∈ gapTexts∗, span.Cuts source.toList text
  /-- What was not read stands behind the place where reading stopped. -/
  rest : Span.Cuts ⟨lexed.offset, utf8Length source.toList⟩ source.toList lexed.remainder.toList
  /-- Nothing remains exactly if the tokens are given. -/
  complete : ∀ tokens, lexed.tokens? = .ok tokens ↔ lexed.remainder = "" ∧ tokens = lexed.tokens
  /-- Otherwise the error is at the first character that remains. -/
  failed : ∀ error, lexed.tokens? = .error error → ∃ others,
    lexed.remainder.toList = error.found :: others ∧ error.remainder = lexed.remainder ∧
      error.span = ⟨lexed.offset, lexed.offset + utf8Length [error.found]⟩
  /-- A reader gives the same tokens, and the same error as its last item. -/
  items : (Lexer.ofSource source).items = lexed.items
  /-- What was read has the same tokens alone. -/
  front : ∀ front, source.toList = front ++ lexed.remainder.toList →
    tokenize (String.ofList front) = ⟨lexed.tokens, "", lexed.offset⟩

/-- Nothing of a source is lost: its tokens and the blanks and comments between them are the part
    that was read, and what was not read is kept. The error says where this begins, and has no part
    in the tokens before it. -/
theorem tokenize_lossless (source : String) : (tokenize source).Lossless source := by
  obtain ⟨items, split⟩ := Split.exists_items source.toList 0
  obtain ⟨front, remainder, tokens, parts, partition, whole, alone⟩ := split.exists_partition
  have given : tokenize source = ⟨tokens, String.ofList remainder, 0 + utf8Length front⟩ := whole
  exact {
    inside := by
      rw [given]
      intro token member
      exact (partition.inside token member).2
    increasing := by
      rw [given]
      exact partition.increasing
    held := by
      rw [given, parts]
      exact partition.held [] remainder rfl
    free := by
      rw [given, parts]
      exact partition.free [] [] remainder (Language.nil_mem_kstar _) rfl
    rest := by
      rw [given, parts]
      exact ⟨front, [], by simp, Nat.zero_add _, by simp⟩
    complete := fun tokens => Lexed.tokens?_eq_ok_iff
    failed := by
      intro error failed
      obtain ⟨others, remains, same, remainder⟩ := Lexed.exists_of_tokens?_error failed
      exact ⟨others, remains, remainder, by rw [same]; simp [Lexer.errorAt]⟩
    items := Lexer.items_ofChars source.toList 0
    front := by
      intro front' parts'
      rw [given] at parts' ⊢
      rw [String.toList_ofList, parts] at parts'
      obtain rfl := List.append_cancel_right parts'
      rw [tokenize, String.toList_ofList, alone] }

end ShaderSource
