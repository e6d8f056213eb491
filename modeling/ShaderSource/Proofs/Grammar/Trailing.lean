import ShaderSource.Proofs.Grammar.Levels

/-!
# What cannot be written behind a value

Whether a call or a property can follow depends on the pieces alone and not on
the value before them. Only a step up or down asks for a value of its own kind.
So where nothing fits behind one value, nothing fits behind any other one that
cannot be stepped.
-/

namespace ShaderSource

namespace Attempt

variable {α β : Type}

/-- Where the first attempt does not fit, the second does not either, whatever they are
    written behind. -/
def RejectsLike (attempt other : Attempt β) : Prop :=
  ∀ setting setting' : Setting, Comparison.levels.Settings setting setting' → ∀ place,
    attempt setting place = .error .mismatch → other setting' place = .error .mismatch

/-- Neither of two given values is a rejection. -/
theorem rejectsLike_pure {value other : β} : RejectsLike (pure value) (pure other) :=
  fun _ _ _ _ mismatch => absurd mismatch nofun

/-- An attempt that never fits is like every other. -/
theorem rejectsLike_of_never {attempt other : Attempt β}
    (never : ∀ setting place, other setting place = .error .mismatch) :
    attempt.RejectsLike other :=
  fun _ setting' _ place _ => never setting' place

/-- Sequences that begin alike are compared by what follows. -/
theorem rejectsLike_bind {attempt : Attempt α} {values : α → α → Prop}
    {next other : α → Attempt β} (leading : Comparison.levels.Parallel values attempt attempt)
    (following : ∀ value value', (next value).RejectsLike (other value')) :
    (attempt >>= next).RejectsLike (attempt >>= other) := by
  intro setting setting' settings place mismatch
  rw [bind_apply] at mismatch ⊢
  have first := leading setting setting' settings place place rfl
  generalize attempt setting place = result at first mismatch
  generalize attempt setting' place = result' at first ⊢
  cases first with
  | @built result result' together =>
    obtain ⟨value, after⟩ := result
    obtain ⟨value', after'⟩ := result'
    obtain ⟨_, rfl⟩ := together
    exact following value value' setting setting' settings after mismatch
  | mismatch => rfl
  | failed => exact absurd mismatch nofun
  | excused => exact absurd mismatch nofun

/-- An attempt that asks for the value before it does not fit behind one value if it does not
    behind another and goes on alike. -/
theorem RejectsLike.behind {next : Node → Attempt β} {setting setting' : Setting}
    {value other : Node} {place : Place} (given : setting.subject = some value)
    (given' : setting'.subject = some other)
    (settings : Comparison.levels.Settings setting setting')
    (following : (next value).RejectsLike (next other))
    (mismatch : (subject >>= next) setting place = .error .mismatch) :
    (subject >>= next) setting' place = .error .mismatch := by
  simp only [bind_apply, subject, given, given'] at mismatch ⊢
  exact following setting setting' settings place mismatch

end Attempt

namespace Production

open Attempt

variable {grammar : Grammar}

/-- A rule that does not fit behind one value does not fit behind another one that cannot be
    stepped. -/
theorem rejects_behind {production : Production} (eligible : production ∈ eligible .trailing)
    {levels : Nat} {value other : Node} {place : Place}
    (mismatch : production.build (grammar.setting levels .trailing (some value)) place =
      .error .mismatch)
    (fixed : other.isCrementTarget = false) :
    production.build (grammar.setting levels .trailing (some other)) place =
      .error .mismatch := by
  have settings : Comparison.levels.Settings (grammar.setting levels .trailing (some value))
      (grammar.setting levels .trailing (some other)) :=
    ⟨rfl, (NodeReader.Agrees.refl _).readers⟩
  rw [eligible_trailing] at eligible
  simp only [List.mem_cons, List.not_mem_nil, or_false] at eligible
  rcases eligible with rfl | rfl | rfl
  · simp only [build, readCall] at mismatch ⊢
    refine RejectsLike.behind rfl rfl settings (rejectsLike_bind parallel_word fun _ _ => ?_)
      mismatch
    apply rejectsLike_bind
      (Comparison.parallel_repeatUntil (Token.placeless_hasText ")") parallel_readArgument)
    intro _ _
    exact rejectsLike_bind parallel_word fun _ _ => rejectsLike_pure
  · simp only [build, readProperty] at mismatch ⊢
    refine RejectsLike.behind rfl rfl settings (rejectsLike_bind parallel_word fun _ _ => ?_)
      mismatch
    apply rejectsLike_bind (Comparison.parallel_token (Token.placeless_hasKind .identifier))
    exact fun _ _ => rejectsLike_pure
  · simp only [build, readTrailingCrement] at mismatch ⊢
    refine RejectsLike.behind rfl rfl settings (rejectsLike_bind parallel_crementOp fun _ _ => ?_)
      mismatch
    apply rejectsLike_of_never
    intro setting place
    rw [bind_apply]
    simp [validate, fixed]

end Production

/-- Where nothing fits behind one value, nothing fits behind another one that cannot be
    stepped. -/
theorem Grammar.trailing_refused {grammar : Grammar} [grammar.Arranged] {levels : Nat}
    {value other : Node} {place : Place}
    (refused : grammar.reader levels .trailing (some value) place = .ok none)
    (fixed : other.isCrementTarget = false) :
    grammar.reader levels .trailing (some other) place = .ok none := by
  cases levels with
  | zero => exact absurd refused nofun
  | succ levels =>
    rw [reader_eq_none_iff] at refused ⊢
    exact fun production eligible =>
      Production.rejects_behind eligible (refused production eligible) fixed

end ShaderSource
