import ShaderSource.Proofs.Grammar.Comparison

/-!
# Where two readings begin

Two readings need not stand together where they begin. It is enough that the
same pieces are before both, so that they take the first token alike, and that
they stand together behind it. An attempt opens if it takes a token before it
does anything that depends on more than these pieces. What it comes to is then
the same in both readings, although they began apart.
-/

namespace ShaderSource

namespace Comparison

variable {α : Type}

/-- Places at which two readings may begin. -/
structure Entry (comparison : Comparison) where
  places : Place → Place → Prop
  pieces : ∀ {place other}, places place other → place.pieces = other.pieces
  /-- Behind the first token the readings stand together. -/
  advance : ∀ {place other}, places place other → place.rest ≠ [] →
    comparison.places place.advance other.advance

/-- Readings that stand together may begin there. -/
def whole (comparison : Comparison) : comparison.Entry where
  places := comparison.places
  pieces := comparison.pieces
  advance together _ := comparison.advance together

namespace Entry

section Judgements

variable {comparison : Comparison} (entry : comparison.Entry)

/-- Readers that stay together, and that also come to the same from where the readings begin, but
    for the clauses of a loop. -/
structure Settings (setting other : Setting) : Prop extends comparison.Settings setting other where
  subject : setting.subject = other.subject
  entering : ∀ flags, flags.contains .simple = false → ∀ place place', entry.places place place' →
    comparison.Results (Option.Rel (comparison.Together Eq)) (setting.nested flags none place)
      (other.nested flags none place')

/-- The attempt comes to the same from where the readings begin, and they stand together behind
    what it takes. -/
def Opens (attempt : Attempt α) : Prop :=
  ∀ setting setting', entry.Settings setting setting' → ∀ place place',
    entry.places place place' →
      comparison.Outcomes Eq (attempt setting place) (attempt setting' place')

end Judgements

variable {comparison : Comparison} {entry : comparison.Entry}

/-- The tokens before both readings show the same pieces one by one. -/
theorem rests {place other : Place} (begins : entry.places place other) :
    List.Forall₂ Token.Alike place.rest other.rest :=
  Place.alike_rests (entry.pieces begins)

open Attempt

section Opens

variable {β : Type} {pattern : Token → Bool} {next : α → Attempt β}

/-- Behind its first token an attempt goes on together. -/
theorem opens_token {next : Token → Attempt β} (placeless : Token.Placeless pattern)
    (following : ∀ shown shown', shown.Alike shown' →
      comparison.Parallel Eq (next shown) (next shown')) :
    entry.Opens (token pattern >>= next) := by
  intro setting setting' settings place place' begins
  have tokens := rests begins
  have behind := entry.advance begins
  rw [bind_apply, bind_apply]
  unfold token
  generalize place.rest = rest at tokens behind ⊢
  generalize place'.rest = rest' at tokens ⊢
  cases tokens with
  | nil => exact .mismatch
  | @cons _ shown _ _ alike _ =>
    dsimp only
    rw [placeless _ _ alike]
    cases pattern shown with
    | true => exact following _ _ alike setting setting' settings.toSettings _ _ (behind nofun)
    | false => exact .mismatch

/-- An optional token is taken by both readings, or they go on from where they begin. -/
theorem opens_token? {next : Option Token → Attempt β} (placeless : Token.Placeless pattern)
    (following : ∀ shown shown', shown.Alike shown' →
      comparison.Parallel Eq (next (some shown)) (next (some shown')))
    (without : entry.Opens (next none)) : entry.Opens (token? pattern >>= next) := by
  intro setting setting' settings place place' begins
  have tokens := rests begins
  have behind := entry.advance begins
  have missing := without setting setting' settings place place' begins
  rw [bind_apply, bind_apply]
  unfold token?
  generalize place.rest = rest at tokens behind ⊢
  generalize place'.rest = rest' at tokens ⊢
  cases tokens with
  | nil => exact missing
  | @cons _ shown _ _ alike _ =>
    dsimp only
    rw [placeless _ _ alike]
    cases pattern shown with
    | true => exact following _ _ alike setting setting' settings.toSettings _ _ (behind nofun)
    | false => exact missing

/-- Behind its first node an attempt goes on together. -/
theorem opens_node {flags : Flags} {next : Node → Attempt β}
    (other : flags.contains .simple = false)
    (following : ∀ value, comparison.Parallel Eq (next value) (next value)) :
    entry.Opens (node flags >>= next) := by
  intro setting setting' settings place place' begins
  apply (outcomes_node (settings.entering flags other place place' begins)).bind
  rintro value _ after after' rfl later
  exact following value setting setting' settings.toSettings after after' later

/-- Both readings are behind the same node, so what follows it may begin an attempt. -/
theorem opens_subject {next : Node → Attempt β} (following : ∀ value, entry.Opens (next value)) :
    entry.Opens (subject >>= next) := by
  intro setting setting' settings place place' begins
  simp only [bind_apply, subject, settings.subject]
  cases setting'.subject with
  | none => exact .mismatch
  | some value => exact following value setting setting' settings place place' begins

/-- An attempt may ask for its context first. -/
theorem opens_flags {next : Flags → Attempt β} (following : ∀ flags, entry.Opens (next flags)) :
    entry.Opens (Attempt.flags >>= next) := by
  intro setting setting' settings place place' begins
  have further := following setting.flags setting setting' settings place place' begins
  rw [bind_apply, bind_apply]
  simpa only [Attempt.flags, settings.flags] using further

/-- A check before an attempt has one outcome in both readings. -/
theorem opens_validate {condition : Bool} {next : Unit → Attempt β}
    (following : entry.Opens (next ())) : entry.Opens (validate condition >>= next) := by
  intro setting setting' settings place place' begins
  rw [bind_apply, bind_apply]
  cases condition with
  | false => exact .mismatch
  | true => exact following setting setting' settings place place' begins

end Opens

/-- What opens wherever readings stand together keeps them together. -/
theorem Opens.keeps {attempt : Attempt α} (opens : comparison.whole.Opens attempt) :
    comparison.Keeps attempt :=
  fun setting setting' settings subject => opens setting setting'
    { settings with subject := subject, entering := fun flags _ => settings.nested flags none }

end Entry

end Comparison

end ShaderSource
