import Mathlib.Data.List.Forall2
import ShaderSource.Grammar.Production
import ShaderSource.Proofs.Grammar.Attempt

/-!
# Two readings side by side

Two readings of one program may differ in the levels that are left to them, or
in where the tokens stand in the text. A comparison says at which places two
readings stand together, and which failures they may have there. The rules of a
grammar look at the pieces before them and at the readers nested in them, and at
nothing else. So readings that begin together stay together from rule to rule,
up to a failure of both or to one that the first may have alone.
-/

namespace ShaderSource

/-- A way to compare two readings. -/
structure Comparison where
  /-- The places at which the readings stand together. -/
  places : Place → Place → Prop
  /-- The failures that the readings have together. -/
  failures : ParseError → ParseError → Prop
  /-- The failures that the first reading may have alone. -/
  excused : ParseError → Prop
  pieces : ∀ {place other}, places place other → place.pieces = other.pieces
  advance : ∀ {place other}, places place other → places place.advance other.advance
  unexpected : ∀ {place other}, places place other → ∀ flags expected,
    failures (.tokens (place.unexpected flags expected))
      (.tokens (other.unexpected flags expected))

/-- Two tokens with one piece, wherever they stand. -/
def Token.Alike (token other : Token) : Prop := token.piece = other.piece

namespace Token.Alike

variable {token other : Token}

/-- Tokens with one piece are of one kind. -/
theorem kind (alike : token.Alike other) : token.kind = other.kind := congrArg Piece.kind alike

/-- Tokens with one piece have one text. -/
theorem text (alike : token.Alike other) : token.text = other.text := congrArg Piece.text alike

end Token.Alike

/-- A property of tokens that does not depend on where they stand. -/
def Token.Placeless (pattern : Token → Bool) : Prop :=
  ∀ token other : Token, token.Alike other → pattern token = pattern other

namespace Token

/-- The text of a token does not depend on its place. -/
theorem placeless_hasText (text : String) : Placeless (hasText text) :=
  fun _ _ alike => by simp only [hasText, alike.text]

/-- Whether the text is one of some texts does not depend on the place. -/
theorem placeless_hasTextAmong (texts : List String) : Placeless (hasTextAmong texts) :=
  fun _ _ alike => by simp only [hasTextAmong, alike.text]

/-- The kind of a token does not depend on its place. -/
theorem placeless_hasKind (kind : TokenKind) : Placeless (hasKind kind) :=
  fun _ _ alike => by simp only [hasKind, alike.kind]

/-- Being a name does not depend on the place. -/
theorem placeless_isName : Placeless isName :=
  fun _ _ alike => by simp only [isName, alike.kind, alike.text]

/-- Being a binary operator does not depend on the place. -/
theorem placeless_isBinaryOp : Placeless isBinaryOp :=
  fun _ _ alike => by simp only [isBinaryOp, alike.kind, alike.text]

end Token

/-- The tokens behind two places that show the same pieces do so one by one. -/
theorem Place.alike_rests {place other : Place} (same : place.pieces = other.pieces) :
    List.Forall₂ Token.Alike place.rest other.rest := by
  rw [← List.forall₂_eq_eq_eq, pieces, pieces, List.forall₂_map_left_iff,
    List.forall₂_map_right_iff] at same
  exact same

namespace Comparison

variable {α β σ : Type}

section Judgements

variable (comparison : Comparison)

/-- A value and the place behind it, in two readings. -/
def Together (values : α → α → Prop) (result other : α × Place) : Prop :=
  values result.1 other.1 ∧ comparison.places result.2 other.2

/-- The results of two readers: values that compare, failures that they have together, or a
    failure that the first has alone. -/
inductive Results (values : α → α → Prop) : Except ParseError α → Except ParseError α → Prop
  | read {value other : α} (alike : values value other) : Results values (.ok value) (.ok other)
  | failed {error other : ParseError} (alike : comparison.failures error other) :
      Results values (.error error) (.error other)
  | excused {error : ParseError} {result : Except ParseError α}
      (alone : comparison.excused error) : Results values (.error error) result

/-- The results of two attempts, which may also find together that the tokens do not fit. -/
inductive Outcomes (values : α → α → Prop) :
    Except Reject (α × Place) → Except Reject (α × Place) → Prop
  | built {result other : α × Place} (together : comparison.Together values result other) :
      Outcomes values (.ok result) (.ok other)
  | mismatch : Outcomes values (.error .mismatch) (.error .mismatch)
  | failed {error other : ParseError} (alike : comparison.failures error other) :
      Outcomes values (.error (.fatal error)) (.error (.fatal other))
  | excused {error : ParseError} {result : Except Reject (α × Place)}
      (alone : comparison.excused error) : Outcomes values (.error (.fatal error)) result

/-- Two readers of nodes that stay together. -/
def Readers (reader other : NodeReader) : Prop :=
  ∀ flags subject place place', comparison.places place place' →
    comparison.Results (Option.Rel (comparison.Together Eq))
      (reader flags subject place) (other flags subject place')

/-- Two settings of the same contexts with nested readers that stay together. -/
structure Settings (setting other : Setting) : Prop where
  flags : setting.flags = other.flags
  nested : comparison.Readers setting.nested other.nested

/-- Two attempts that stay together, whatever they are written behind. -/
def Parallel (values : α → α → Prop) (attempt other : Attempt α) : Prop :=
  ∀ setting setting', comparison.Settings setting setting' →
    ∀ place place', comparison.places place place' →
      comparison.Outcomes values (attempt setting place) (other setting' place')

/-- The attempt stays together with itself behind the same value. -/
def Keeps (attempt : Attempt α) : Prop :=
  ∀ setting setting', comparison.Settings setting setting' → setting.subject = setting'.subject →
    ∀ place place', comparison.places place place' →
      comparison.Outcomes Eq (attempt setting place) (attempt setting' place')

end Judgements

variable {comparison : Comparison}

/-- As many tokens are left to both readings. -/
theorem length {place other : Place} (together : comparison.places place other) :
    place.rest.length = other.rest.length := by
  simpa [Place.pieces] using congrArg List.length (comparison.pieces together)

/-- The tokens that are left to both readings show the same pieces one by one. -/
theorem rests {place other : Place} (together : comparison.places place other) :
    List.Forall₂ Token.Alike place.rest other.rest :=
  Place.alike_rests (comparison.pieces together)

/-- The next tokens of two readings fit a pattern together. -/
theorem any_head {pattern : Token → Bool} (placeless : Token.Placeless pattern)
    {place other : Place} (together : comparison.places place other) :
    place.rest.head?.any pattern = other.rest.head?.any pattern := by
  have tokens := rests together
  generalize place.rest = rest at tokens ⊢
  generalize other.rest = rest' at tokens ⊢
  cases tokens with
  | nil => rfl
  | cons alike _ => exact placeless _ _ alike

/-- If the first parts of two sequences come to the same, and what follows them does so from there,
    so do the sequences. -/
theorem Outcomes.bind {attempt other : Attempt α} {next next' : α → Attempt β}
    {values : α → α → Prop} {values' : β → β → Prop} {setting setting' : Setting}
    {place place' : Place}
    (first : comparison.Outcomes values (attempt setting place) (other setting' place'))
    (following : ∀ value value' after after', values value value' →
      comparison.places after after' →
        comparison.Outcomes values' (next value setting after) (next' value' setting' after')) :
    comparison.Outcomes values' ((attempt >>= next) setting place)
      ((other >>= next') setting' place') := by
  rw [Attempt.bind_apply, Attempt.bind_apply]
  generalize attempt setting place = result at first ⊢
  generalize other setting' place' = result' at first ⊢
  cases first with
  | built alike => exact following _ _ _ _ alike.1 alike.2
  | mismatch => exact .mismatch
  | failed alike => exact .failed alike
  | excused alone => exact .excused alone

namespace Parallel

/-- An attempt that stays together with itself does so behind every value. -/
theorem keeps {attempt : Attempt α} (parallel : comparison.Parallel Eq attempt attempt) :
    comparison.Keeps attempt :=
  fun setting setting' settings _ => parallel setting setting' settings

variable {attempt other : Attempt α} {next next' : α → Attempt β} {values : α → α → Prop}
  {values' : β → β → Prop}

/-- Sequences stay together if they begin together and go on together from values that
    compare. -/
theorem bindAlike (leading : comparison.Parallel values attempt other)
    (following : ∀ value value', values value value' →
      comparison.Parallel values' (next value) (next' value')) :
    comparison.Parallel values' (attempt >>= next) (other >>= next') := by
  intro setting setting' settings place place' together
  apply (leading setting setting' settings place place' together).bind
  intro value value' after after' alike later
  exact following value value' alike setting setting' settings after after' later

/-- Sequences stay together if their first parts do and their second parts do behind each value.
    -/
theorem bind (leading : comparison.Parallel Eq attempt other)
    (following : ∀ value, comparison.Parallel values' (next value) (next' value)) :
    comparison.Parallel values' (attempt >>= next) (other >>= next') :=
  leading.bindAlike fun value _ same => same ▸ following value

/-- What follows does not look at the value that is read first. -/
theorem skip {following following' : Attempt β} (leading : comparison.Parallel values attempt other)
    (parallel : comparison.Parallel values' following following') :
    comparison.Parallel values' (attempt >>= fun _ => following)
      (other >>= fun _ => following') :=
  leading.bindAlike fun _ _ _ => parallel

end Parallel

/-- Values that compare are results that compare. -/
theorem parallel_pureAlike {values : α → α → Prop} {value other : α} (alike : values value other) :
    comparison.Parallel values (pure value) (pure other) :=
  fun _ _ _ _ _ together => .built ⟨alike, together⟩

/-- A value that is given in both readings is the same. -/
theorem parallel_pure {value : α} : comparison.Parallel Eq (pure value) (pure value) :=
  parallel_pureAlike rfl

/-- Values that are made from the same value are the same. -/
theorem Parallel.map {attempt other : Attempt α} {change : α → β}
    (parallel : comparison.Parallel Eq attempt other) :
    comparison.Parallel Eq (change <$> attempt) (change <$> other) := by
  rw [← bind_pure_comp, ← bind_pure_comp]
  exact parallel.bind fun _ => parallel_pure

section Attempts

open Attempt

variable {pattern : Token → Bool}

/-- A token is read in both readings or missing in both. -/
theorem parallel_token (placeless : Token.Placeless pattern) :
    comparison.Parallel Token.Alike (token pattern) (token pattern) := by
  intro setting setting' _ place place' together
  have tokens := rests together
  unfold token
  generalize place.rest = rest at tokens ⊢
  generalize place'.rest = rest' at tokens ⊢
  cases tokens with
  | nil => exact .mismatch
  | cons alike _ =>
    dsimp only
    rw [placeless _ _ alike]
    split
    case isTrue => exact .built ⟨alike, comparison.advance together⟩
    case isFalse => exact .mismatch

/-- An optional token is read in both readings or left out in both. -/
theorem parallel_token? (placeless : Token.Placeless pattern) :
    comparison.Parallel (Option.Rel Token.Alike) (token? pattern) (token? pattern) := by
  intro setting setting' _ place place' together
  have tokens := rests together
  unfold token?
  generalize place.rest = rest at tokens ⊢
  generalize place'.rest = rest' at tokens ⊢
  cases tokens with
  | nil => exact .built ⟨.none, together⟩
  | cons alike _ =>
    dsimp only
    rw [placeless _ _ alike]
    split
    case isTrue => exact .built ⟨.some alike, comparison.advance together⟩
    case isFalse => exact .built ⟨.none, together⟩

/-- A token under one condition is read together, or left out in both. -/
theorem parallel_tokenIf {condition : Bool} (placeless : Token.Placeless pattern) :
    comparison.Parallel (Option.Rel Token.Alike) (tokenIf condition pattern)
      (tokenIf condition pattern) := by
  cases condition with
  | false => exact parallel_pureAlike .none
  | true =>
    simp only [tokenIf, if_true]
    rw [← bind_pure_comp]
    exact (parallel_token placeless).bindAlike fun _ _ alike => parallel_pureAlike (.some alike)

/-- Both readings see the same next token. -/
theorem parallel_nextMatches (placeless : Token.Placeless pattern) :
    comparison.Parallel Eq (nextMatches pattern) (nextMatches pattern) :=
  fun _ _ _ _ _ together => .built ⟨any_head placeless together, together⟩

/-- A check has one outcome in both readings. -/
theorem parallel_validate {condition : Bool} :
    comparison.Parallel Eq (validate condition) (validate condition) := by
  intro setting setting' _ place place' together
  unfold validate
  split
  case isTrue => exact .built ⟨rfl, together⟩
  case isFalse => exact .mismatch

/-- A word that both look up with one result has one outcome. -/
theorem parallel_spelled {word other : Except SpellingError α} (same : word = other) :
    comparison.Parallel Eq (spelled word) (spelled other) := by
  subst same
  intro setting setting' _ place place' together
  unfold spelled
  split
  case h_1 => exact .built ⟨rfl, together⟩
  case h_2 => exact .mismatch

/-- Both readings are in one context. -/
theorem parallel_flags : comparison.Parallel Eq Attempt.flags Attempt.flags :=
  fun _ _ settings _ _ together => .built ⟨settings.flags, together⟩

/-- A node is there in both readings if the nested readers find one. -/
theorem outcomes_node {flags : Flags} {setting setting' : Setting} {place place' : Place}
    (nested : comparison.Results (Option.Rel (comparison.Together Eq))
      (setting.nested flags none place) (setting'.nested flags none place')) :
    comparison.Outcomes Eq (node flags setting place) (node flags setting' place') := by
  unfold node
  generalize setting.nested flags none place = result at nested ⊢
  generalize setting'.nested flags none place' = result' at nested ⊢
  cases nested with
  | read found =>
    cases found with
    | none => exact .mismatch
    | some alike => exact .built alike
  | failed alike => exact .failed alike
  | excused alone => exact .excused alone

/-- A nested node is read together, as the readers of the settings are. -/
theorem parallel_node {flags : Flags} : comparison.Parallel Eq (node flags) (node flags) :=
  fun _ _ settings place place' together =>
    outcomes_node (settings.nested flags none place place' together)

/-- The next link of a chain behind a node is read together. -/
theorem parallel_trailing? (value : Node) :
    comparison.Parallel Eq (trailing? value) (trailing? value) := by
  intro setting setting' settings place place' together
  have nested := settings.nested .trailing (some value) place place' together
  unfold trailing?
  generalize setting.nested .trailing (some value) place = result at nested ⊢
  generalize setting'.nested .trailing (some value) place' = result' at nested ⊢
  cases nested with
  | read found =>
    cases found with
    | none => exact .built ⟨rfl, together⟩
    | some alike => exact .built ⟨congrArg some alike.1, alike.2⟩
  | failed alike => exact .failed alike
  | excused alone => exact .excused alone

/-- Repetitions stay together if their rounds do. The induction is on the number of tokens
    left, which is the same in both readings. -/
theorem parallel_repeatWhen {going : Place → Bool} {part : Nat → σ → Attempt σ}
    (alike : ∀ {place other}, comparison.places place other → going place = going other)
    (parallel : ∀ rounds made, comparison.Parallel Eq (part rounds made) (part rounds made))
    (rounds : Nat) (made : σ) :
    comparison.Parallel Eq (repeatWhen going part rounds made)
      (repeatWhen going part rounds made) := by
  intro setting setting' settings place place' together
  induction size : place.rest.length using Nat.strongRecOn
    generalizing rounds made place place' with
  | ind bound inductionHypothesis =>
    rw [repeatWhen, repeatWhen, ← alike together]
    split
    case isFalse => exact .built ⟨rfl, together⟩
    case isTrue =>
      have round := parallel rounds made setting setting' settings place place' together
      generalize part rounds made setting place = result at round ⊢
      generalize part rounds made setting' place' = result' at round ⊢
      cases round with
      | @built result result' both =>
        obtain ⟨made', after⟩ := result
        obtain ⟨made'', after'⟩ := result'
        obtain ⟨rfl, later⟩ := both
        dsimp only
        -- Both rounds advance or neither does, since as many tokens are left to both readings.
        rw [← length together, ← length later]
        split
        case isTrue advances =>
          exact inductionHypothesis after.rest.length (size ▸ advances) (rounds + 1) made' after
            after' later rfl
        case isFalse => exact .built ⟨rfl, later⟩
      | mismatch => exact .mismatch
      | failed alike => exact .failed alike
      | excused alone => exact .excused alone

/-- A repetition up to a token goes through the same rounds in both readings. -/
theorem parallel_repeatUntil {part : Nat → σ → Attempt σ} {start : σ}
    (placeless : Token.Placeless pattern)
    (parallel : ∀ rounds made, comparison.Parallel Eq (part rounds made) (part rounds made)) :
    comparison.Parallel Eq (repeatUntil pattern part start) (repeatUntil pattern part start) :=
  parallel_repeatWhen
    (any_head fun token other alike => congrArg (!·) (placeless token other alike)) parallel 0 start

/-- A repetition as long as a token follows goes through the same rounds in both readings. -/
theorem parallel_repeatWhile {part : Nat → σ → Attempt σ} {start : σ}
    (placeless : Token.Placeless pattern)
    (parallel : ∀ rounds made, comparison.Parallel Eq (part rounds made) (part rounds made)) :
    comparison.Parallel Eq (repeatWhile pattern part start) (repeatWhile pattern part start) :=
  parallel_repeatWhen (any_head placeless) parallel 0 start

/-- A chain of links behind a node is read together. -/
theorem parallel_trailingChain (value : Node) :
    comparison.Parallel Eq (trailingChain value) (trailingChain value) := by
  intro setting setting' settings place place' together
  induction size : place.rest.length using Nat.strongRecOn generalizing value place place' with
  | ind bound inductionHypothesis =>
    have behind := parallel_trailing? value setting setting' settings place place' together
    rw [trailingChain, trailingChain]
    generalize trailing? value setting place = result at behind ⊢
    generalize trailing? value setting' place' = result' at behind ⊢
    cases behind with
    | @built result result' both =>
      obtain ⟨longer?, after⟩ := result
      obtain ⟨longer?', after'⟩ := result'
      obtain ⟨rfl, later⟩ := both
      cases longer? with
      | none => exact .built ⟨rfl, later⟩
      | some longer =>
        dsimp only
        rw [← length together, ← length later]
        split
        case isTrue advances =>
          exact inductionHypothesis after.rest.length (size ▸ advances) longer after after' later rfl
        case isFalse => exact .built ⟨rfl, later⟩
    | mismatch => exact .mismatch
    | failed alike => exact .failed alike
    | excused alone => exact .excused alone

end Attempts

section Lists

variable {reader other : NodeReader}

/-- A list of nodes up to the end is read together. -/
theorem results_readNodes (readers : comparison.Readers reader other) (flags : Flags)
    {place place' : Place} (together : comparison.places place place') :
    comparison.Results (comparison.Together Eq) (readNodes reader flags place)
      (readNodes other flags place') := by
  induction size : place.rest.length using Nat.strongRecOn generalizing place place' with
  | ind bound inductionHypothesis =>
    have first := readers flags none place place' together
    rw [readNodes, readNodes]
    generalize reader flags none place = result at first ⊢
    generalize other flags none place' = result' at first ⊢
    cases first with
    | failed alike => exact .failed alike
    | excused alone => exact .excused alone
    | read found =>
      cases found with
      | none => exact .read ⟨rfl, together⟩
      | @some result result' both =>
        obtain ⟨node, after⟩ := result
        obtain ⟨node', after'⟩ := result'
        obtain ⟨rfl, later⟩ := both
        dsimp only
        rw [← length together, ← length later]
        split
        case isFalse => exact .read ⟨rfl, together⟩
        case isTrue advances =>
          have further := inductionHypothesis after.rest.length (size ▸ advances) later rfl
          generalize readNodes reader flags after = result at further ⊢
          generalize readNodes other flags after' = result' at further ⊢
          cases further with
          | failed alike => exact .failed alike
          | excused alone => exact .excused alone
          | read both => exact .read ⟨congrArg (node :: ·) both.1, both.2⟩

/-- Readers that stay together read alike lists, or find the same token in the way. -/
theorem results_readList (readers : comparison.Readers reader other) (flags : Flags)
    (terminator : Option String) {place place' : Place}
    (together : comparison.places place place') :
    comparison.Results (comparison.Together Eq) (readList reader flags terminator place)
      (readList other flags terminator place') := by
  have nodes := results_readNodes readers flags together
  unfold readList
  generalize readNodes reader flags place = result at nodes ⊢
  generalize readNodes other flags place' = result' at nodes ⊢
  cases nodes with
  | failed alike => exact .failed alike
  | excused alone => exact .excused alone
  | @read result result' both =>
    obtain ⟨nodes, after⟩ := result
    obtain ⟨nodes', after'⟩ := result'
    obtain ⟨rfl, later⟩ := both
    have tokens := rests later
    dsimp only at tokens later ⊢
    generalize after.rest = rest at tokens ⊢
    generalize after'.rest = rest' at tokens ⊢
    cases tokens with
    | nil => exact .read ⟨rfl, later⟩
    | cons alike _ =>
      dsimp only
      rw [alike.text]
      split
      case isTrue => exact .read ⟨rfl, later⟩
      case isFalse => exact .failed (comparison.unexpected later flags terminator)

end Lists

/-- A list of nodes up to its terminator is read together. -/
theorem parallel_nodes {flags : Flags} {terminator : String} :
    comparison.Parallel Eq (Attempt.nodes flags terminator) (Attempt.nodes flags terminator) := by
  intro setting setting' settings place place' together
  have list := results_readList settings.nested flags (some terminator) together
  unfold Attempt.nodes
  generalize readList setting.nested flags (some terminator) place = result at list ⊢
  generalize readList setting'.nested flags (some terminator) place' = result' at list ⊢
  cases list with
  | read both => exact .built both
  | failed alike => exact .failed alike
  | excused alone => exact .excused alone

/-- Of rules that come to the same at two places, the first one that fits is the same. -/
theorem results_firstFit {setting setting' : Setting} {place place' : Place} {rules : List Rule}
    (each : ∀ rule ∈ rules,
      comparison.Outcomes Eq (rule.build setting place) (rule.build setting' place')) :
    comparison.Results (Option.Rel (comparison.Together Eq)) (Grammar.firstFit setting place rules)
      (Grammar.firstFit setting' place' rules) := by
  induction rules with
  | nil => exact .read .none
  | cons rule rules inductionHypothesis =>
    have first := each rule (by simp)
    rw [Grammar.firstFit, Grammar.firstFit]
    generalize rule.build setting place = result at first ⊢
    generalize rule.build setting' place' = result' at first ⊢
    cases first with
    | built both => exact .read (.some both)
    | mismatch => exact inductionHypothesis fun other member => each other (by simp [member])
    | failed alike => exact .failed alike
    | excused alone => exact .excused alone

end Comparison

end ShaderSource
