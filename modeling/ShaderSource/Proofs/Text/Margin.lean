import ShaderSource.Proofs.Token.Typeset

/-!
# Lines that are set in by their braces

The margin of a line is as wide as the number of braces that are open before it
asks for. A line that begins with a closing brace is set in by one step less. To
read a text character by character shows whether all its lines are like this,
and texts can be read one behind the other. When the lines of a text are set in,
they are like this behind one more open brace.
-/

namespace ShaderSource

/-- Where the reading of some lines stands. -/
inductive LineState where
  /-- Among the spaces in front of a line, behind some open braces. -/
  | margin (depth column : Nat)
  /-- In the text of a line, behind some open braces and a last character. -/
  | inside (depth : Nat) (last : Char)
  deriving DecidableEq, Repr

namespace LineState

/-- The number of open braces behind a character. A brace that was not opened is not closed. -/
def depthBehind? (depth : Nat) (char : Char) : Option Nat :=
  if char = '\x7b' then some (depth + 1)
  else if char = '\x7d' then if depth = 0 then none else some (depth - 1)
  else some depth

/-- The steps by which a line with a first character is set in behind some open braces. -/
def steps (depth : Nat) (first : Char) : Nat := if first = '\x7d' then depth - 1 else depth

/-- The characters that a line can end with. -/
def closesLine (char : Char) : Bool := char == ';' || char == '\x7b' || char == '\x7d'

/-- Reads a character, unless the line is not set in rightly or must not end there. -/
def step? : LineState → Char → Option LineState
  | margin depth column, char =>
    if char = ' ' then some (margin depth (column + 1))
    else if char = '\n' ∨ column ≠ 4 * steps depth char then none
    else (depthBehind? depth char).map (inside · char)
  | inside depth last, char =>
    if char = '\n' then if closesLine last then some (margin depth 0) else none
    else (depthBehind? depth char).map (inside · char)

/-- Reads some characters. -/
def run? (state : LineState) (chars : List Char) : Option LineState := chars.foldlM step? state

/-- Nothing is read of no characters. -/
@[simp]
theorem run?_nil (state : LineState) : state.run? [] = some state := rfl

/-- The first character is read before the others. -/
theorem run?_cons (state : LineState) (char : Char) (chars : List Char) :
    state.run? (char :: chars) = (state.step? char).bind (·.run? chars) := rfl

/-- A text is read before what stands behind it. -/
theorem run?_append (state : LineState) (chars others : List Char) :
    state.run? (chars ++ others) = (state.run? chars).bind (·.run? others) :=
  List.foldlM_append

/-- Texts are read one behind the other. -/
theorem run?_trans {state next final : LineState} {chars others : List Char}
    (first : state.run? chars = some next) (second : next.run? others = some final) :
    state.run? (chars ++ others) = some final := by
  rw [run?_append, first]
  exact second

/-- The same place in a text whose lines are set in by one step more. -/
def raise : LineState → LineState
  | margin depth column => margin (depth + 1) (column + 4)
  | inside depth last => inside (depth + 1) last

section Raised

variable {state next : LineState} {char : Char} {depth deeper : Nat}

/-- With one brace more open before a character, one more is open behind it. -/
theorem depthBehind?_raise (behind : depthBehind? depth char = some deeper) :
    depthBehind? (depth + 1) char = some (deeper + 1) := by
  unfold depthBehind? at behind ⊢
  split_ifs at behind ⊢ <;> simp_all
  omega

/-- One brace more asks for one step more. -/
theorem steps_raise (behind : depthBehind? depth char = some deeper) :
    steps (depth + 1) char = steps depth char + 1 := by
  unfold steps
  split
  case isFalse => rfl
  case isTrue closing =>
    subst closing
    have opened : depth ≠ 0 := by
      rintro rfl
      exact absurd behind (by simp [depthBehind?])
    omega

/-- What is read in a line is read in the line that is set in by one step more. -/
theorem step?_raise (other : char ≠ '\n') (taken : state.step? char = some next) :
    state.raise.step? char = some next.raise := by
  cases state with
  | margin depth column =>
    by_cases space : char = ' '
    case pos =>
      rw [step?, if_pos space] at taken
      obtain rfl := Option.some.inj taken
      rw [raise, step?, if_pos space, raise, Nat.add_right_comm]
    case neg =>
      rw [step?, if_neg space] at taken
      by_cases fits : column = 4 * steps depth char
      case neg =>
        rw [if_pos (.inr fits)] at taken
        exact absurd taken (by simp)
      case pos =>
        rw [if_neg (by simp [other, fits])] at taken
        obtain ⟨deeper, behind, rfl⟩ := Option.map_eq_some_iff.mp taken
        have fits' : column + 4 = 4 * steps (depth + 1) char := by
          rw [steps_raise behind]
          omega
        rw [raise, step?, if_neg space, if_neg (by simp [other, fits']), depthBehind?_raise behind]
        rfl
  | inside depth last =>
    rw [step?, if_neg other] at taken
    obtain ⟨deeper, behind, rfl⟩ := Option.map_eq_some_iff.mp taken
    rw [raise, step?, if_neg other, depthBehind?_raise behind]
    rfl

/-- A line feed is read only behind a character that can end a line. -/
theorem of_step?_feed (taken : state.step? '\n' = some next) :
    ∃ depth last, closesLine last = true ∧ state = inside depth last ∧ next = margin depth 0 := by
  cases state with
  | margin depth column => exact absurd taken (by simp [step?])
  | inside depth last =>
    rw [step?, if_pos rfl] at taken
    split at taken
    case isTrue closes => exact ⟨depth, last, closes, rfl, (Option.some.inj taken).symm⟩
    case isFalse => exact absurd taken (by simp)

/-- A line that can end can end as well when it is set in by one step more, and the next line is
    set in then. -/
theorem run?_feed_raise (taken : state.step? '\n' = some next) :
    state.raise.run? ('\n' :: Text.indentation.toList) = some next.raise := by
  obtain ⟨depth, last, closes, rfl, rfl⟩ := of_step?_feed taken
  have ended : (inside depth last).raise.step? '\n' = some (margin (depth + 1) 0) := by
    rw [raise, step?, if_pos rfl, if_pos closes]
  rw [run?_cons, ended]
  rfl

/-- A text can be read behind one more open brace if its lines are set in by one step more. -/
theorem run?_spread {chars : List Char} (read : state.run? chars = some next) :
    state.raise.run? (Text.spread chars) = some next.raise := by
  induction chars generalizing state with
  | nil =>
    obtain rfl := Option.some.inj read
    rfl
  | cons char chars inductionHypothesis =>
    rw [run?_cons] at read
    obtain ⟨middle, taken, later⟩ := Option.bind_eq_some_iff.mp read
    by_cases feed : char = '\n'
    case pos =>
      subst feed
      rw [Text.spread_newline]
      exact run?_trans (run?_feed_raise taken) (inductionHypothesis later)
    case neg =>
      rw [Text.spread_cons_of_ne feed, run?_cons, step?_raise feed taken]
      exact inductionHypothesis later

end Raised

section Inline

/-- A character that neither ends a line nor opens or closes a brace. -/
def isInline (char : Char) : Bool := char != '\n' && char != '\x7b' && char != '\x7d'

/-- Within a line, a character that is no brace only becomes the last one. -/
theorem step?_inside {char : Char} (inline : isInline char = true) (depth : Nat) (last : Char) :
    (inside depth last).step? char = some (inside depth char) := by
  simp only [isInline, Bool.and_eq_true, bne_iff_ne] at inline
  obtain ⟨⟨noFeed, noOpening⟩, noClosing⟩ := inline
  simp [step?, depthBehind?, noFeed, noOpening, noClosing]

/-- Such characters leave a line and its braces open. -/
theorem run?_inside {chars : List Char} (inline : chars.all isInline = true) (depth : Nat)
    (last : Char) : ∃ last', (inside depth last).run? chars = some (inside depth last') := by
  induction chars generalizing last with
  | nil => exact ⟨last, rfl⟩
  | cons char chars inductionHypothesis =>
    rw [List.all_cons, Bool.and_eq_true] at inline
    rw [run?_cons, step?_inside inline.1]
    exact inductionHypothesis inline.2 char

/-- A text of one line that begins with a character, and not with a space. -/
structure Opens (chars : List Char) : Prop where
  inline : chars.all isInline = true
  begins : chars.head?.any (· != ' ') = true

instance (chars : List Char) : Decidable (Opens chars) :=
  decidable_of_iff (chars.all isInline = true ∧ chars.head?.any (· != ' ') = true)
    ⟨fun ⟨inline, begins⟩ => ⟨inline, begins⟩, fun opens => ⟨opens.inline, opens.begins⟩⟩

/-- More of the line may follow a text that opens it. -/
theorem Opens.append {chars others : List Char} (opens : Opens chars)
    (inline : others.all isInline = true) : Opens (chars ++ others) where
  inline := by rw [List.all_append, opens.inline, inline, Bool.and_self]
  begins := by
    have begins := opens.begins
    cases chars with
    | nil => exact absurd begins (by simp)
    | cons first rest => exact begins

/-- A line without braces before it is not set in. -/
theorem Opens.run? {chars : List Char} (opens : Opens chars) :
    ∃ last, (margin 0 0).run? chars = some (inside 0 last) := by
  obtain ⟨inline, begins⟩ := opens
  cases chars with
  | nil => exact absurd begins (by simp)
  | cons first rest =>
    have visible : first ≠ ' ' := by simpa using begins
    rw [List.all_cons, Bool.and_eq_true] at inline
    have other := inline.1
    simp only [isInline, Bool.and_eq_true, bne_iff_ne] at other
    obtain ⟨⟨noFeed, noOpening⟩, noClosing⟩ := other
    have taken : (margin 0 0).step? first = some (inside 0 first) := by
      simp [step?, steps, depthBehind?, visible, noFeed, noOpening, noClosing]
    rw [run?_cons, taken]
    exact run?_inside inline.2 0 first

end Inline

end LineState

/-- The braces that are opened in a text, less those that are closed. -/
def openBraces (chars : List Char) : Int := (chars.count '\x7b' : Int) - chars.count '\x7d'

/-- The open braces of two texts are added. -/
theorem openBraces_append (chars others : List Char) :
    openBraces (chars ++ others) = openBraces chars + openBraces others := by
  unfold openBraces
  rw [List.count_append, List.count_append]
  omega

/-- The open braces of a text are those of its first character and of the others. -/
theorem openBraces_cons (char : Char) (chars : List Char) :
    openBraces (char :: chars) = openBraces [char] + openBraces chars :=
  openBraces_append [char] chars

/-- A line that stands behind some open braces is set in by them: by four spaces for each of them,
    with a closing brace at the front for one less. It is not blank, and it ends with a semicolon or
    a brace. -/
structure SetIn (depth : Int) (line : List Char) : Prop where
  visible : ∃ char ∈ line, Text.isBlank char = false
  form : ∃ (steps : Nat) (first : Char) (rest : List Char),
    line = List.replicate (4 * steps) ' ' ++ first :: rest ∧ first ≠ ' ' ∧
      (steps : Int) = depth - if first = '\x7d' then 1 else 0
  ends : ∃ last ∈ [';', '\x7b', '\x7d'], line.getLast? = some last

/-- A line that is set in is not empty. -/
theorem SetIn.ne_nil {depth : Int} {line : List Char} (set : SetIn depth line) : line ≠ [] := by
  obtain ⟨char, member, _⟩ := set.visible
  exact List.ne_nil_of_mem member

namespace LineState

variable {chars line : List Char} {depth deeper column : Nat} {last last' : Char}

/-- The braces open behind a character are those before it and its own. -/
theorem openBraces_singleton {char : Char} (behind : depthBehind? depth char = some deeper) :
    (deeper : Int) = depth + openBraces [char] := by
  unfold depthBehind? at behind
  split_ifs at behind with opening closing none
  · obtain rfl := Option.some.inj behind
    subst opening
    rfl
  · obtain rfl := Option.some.inj behind
    subst closing
    have closed : openBraces ['\x7d'] = -1 := rfl
    rw [closed]
    omega
  · obtain rfl := Option.some.inj behind
    simp [openBraces, opening, closing]

/-- What stands in a line behind its margin. -/
theorem of_run?_inside (noFeed : '\n' ∉ chars)
    (read : (inside depth last).run? chars = some (inside deeper last')) :
    chars.getLast?.getD last = last' ∧ (deeper : Int) = depth + openBraces chars := by
  induction chars generalizing depth last with
  | nil =>
    obtain ⟨rfl, rfl⟩ := inside.inj (Option.some.inj read)
    exact ⟨rfl, by simp [openBraces]⟩
  | cons char chars inductionHypothesis =>
    simp only [List.mem_cons, not_or] at noFeed
    rw [run?_cons, step?, if_neg (Ne.symm noFeed.1)] at read
    obtain ⟨_, taken, later⟩ := Option.bind_eq_some_iff.mp read
    obtain ⟨next, behind, rfl⟩ := Option.map_eq_some_iff.mp taken
    obtain ⟨ends, braces⟩ := inductionHypothesis noFeed.2 later
    refine ⟨?_, ?_⟩
    · rw [List.getLast?_cons, Option.getD_some]
      exact ends
    · rw [braces, openBraces_singleton behind, openBraces_cons char chars]
      omega

/-- What the margin of a line was, and what stands in the line. -/
theorem of_run?_margin (noFeed : '\n' ∉ line)
    (read : (margin depth column).run? line = some (inside deeper last)) :
    ∃ spaces first rest, line = List.replicate spaces ' ' ++ first :: rest ∧ first ≠ ' ' ∧
      column + spaces = 4 * steps depth first ∧ (first = '\x7d' → depth ≠ 0) ∧
      line.getLast? = some last ∧ (deeper : Int) = depth + openBraces line := by
  induction line generalizing column with
  | nil => exact absurd read (by simp)
  | cons char chars inductionHypothesis =>
    simp only [List.mem_cons, not_or] at noFeed
    rw [run?_cons] at read
    obtain ⟨_, taken, later⟩ := Option.bind_eq_some_iff.mp read
    rw [step?] at taken
    by_cases space : char = ' '
    case pos =>
      subst space
      rw [if_pos rfl] at taken
      obtain rfl := Option.some.inj taken
      obtain ⟨spaces, first, rest, rfl, visible, fits, opened, ends, braces⟩ :=
        inductionHypothesis noFeed.2 later
      refine ⟨spaces + 1, first, rest, rfl, visible, by omega, opened, ?_, ?_⟩
      · rw [List.getLast?_cons, ends]
        rfl
      · have space : openBraces [' '] = 0 := rfl
        rw [braces, openBraces_cons ' ' (List.replicate spaces ' ' ++ first :: rest), space,
          Int.zero_add]
    case neg =>
      rw [if_neg space] at taken
      by_cases fits : column = 4 * steps depth char
      case neg =>
        rw [if_pos (.inr fits)] at taken
        exact absurd taken (by simp)
      case pos =>
        rw [if_neg (by simp [Ne.symm noFeed.1, fits])] at taken
        obtain ⟨next, behind, rfl⟩ := Option.map_eq_some_iff.mp taken
        obtain ⟨ends, braces⟩ := of_run?_inside noFeed.2 later
        refine ⟨0, char, chars, rfl, space, fits, ?_, ?_, ?_⟩
        · rintro rfl rfl
          exact absurd behind (by simp [depthBehind?])
        · rw [List.getLast?_cons, ends]
        · rw [braces, openBraces_singleton behind, openBraces_cons char chars]
          omega

/-- A line that is read up to a semicolon or a brace is set in, and its own braces are counted. -/
theorem setIn_of_run? (noFeed : '\n' ∉ line) (closes : closesLine last = true)
    (read : (margin depth 0).run? line = some (inside deeper last)) :
    SetIn depth line ∧ (deeper : Int) = depth + openBraces line := by
  obtain ⟨spaces, first, rest, form, visible, fits, opened, ends, braces⟩ :=
    of_run?_margin noFeed read
  rw [Nat.zero_add] at fits
  have known : last ∈ [';', '\x7b', '\x7d'] := by simpa [closesLine, or_assoc] using closes
  have sign : Text.isBlank last = false := by
    simp only [closesLine, Bool.or_eq_true, beq_iff_eq] at closes
    rcases closes with (rfl | rfl) | rfl <;> decide
  refine ⟨⟨⟨last, List.mem_of_getLast? ends, sign⟩,
    ⟨steps depth first, first, rest, by rw [form, fits], visible, ?_⟩, last, known, ends⟩, braces⟩
  · unfold steps
    split
    case isTrue closing =>
      have positive := opened closing
      omega
    case isFalse => exact (Int.sub_zero _).symm

end LineState

namespace Text

variable {chars line : List Char}

/-- A character in front of a text belongs to the first line. -/
theorem lines_cons {char : Char} (noReturn : char ≠ '\r') (noFeed : char ≠ '\n')
    (chars : List Char) :
    lines (char :: chars) = (char :: (lines chars).headD []) :: (lines chars).tail := by
  rw [lines]
  · cases lines chars <;> rfl
  · exact noFeed
  · exact fun _ same => absurd same noReturn

/-- A text without line feeds is one line. -/
theorem lines_of_line (filled : line ≠ []) (noReturn : '\r' ∉ line) (noFeed : '\n' ∉ line) :
    lines line = [line] := by
  induction line with
  | nil => exact absurd rfl filled
  | cons char rest inductionHypothesis =>
    simp only [List.mem_cons, not_or] at noReturn noFeed
    rw [lines_cons (Ne.symm noReturn.1) (Ne.symm noFeed.1)]
    cases rest with
    | nil => rfl
    | cons next others =>
      rw [inductionHypothesis (List.cons_ne_nil _ _) noReturn.2 noFeed.2]
      rfl

/-- The lines of two texts with a line feed between them. -/
theorem lines_append (filled : chars ≠ []) (noReturn : '\r' ∉ chars)
    (noFeed : chars.getLast? ≠ some '\n') (others : List Char) :
    lines (chars ++ '\n' :: others) = lines chars ++ lines others := by
  induction chars with
  | nil => exact absurd rfl filled
  | cons char rest inductionHypothesis =>
    simp only [List.mem_cons, not_or] at noReturn
    by_cases feed : char = '\n'
    case pos =>
      subst feed
      have some : rest ≠ [] := by
        rintro rfl
        exact noFeed rfl
      rw [List.getLast?_cons_of_ne_nil some] at noFeed
      rw [List.cons_append, lines, lines, inductionHypothesis some noReturn.2 noFeed]
      rfl
    case neg =>
      rw [List.cons_append, lines_cons (Ne.symm noReturn.1) feed,
        lines_cons (Ne.symm noReturn.1) feed]
      cases rest with
      | nil => rfl
      | cons next later =>
        rw [List.getLast?_cons_cons] at noFeed
        obtain ⟨first, below, split, _⟩ :=
          lines_spread (List.cons_ne_nil next later) noReturn.2 noFeed
        rw [inductionHypothesis (List.cons_ne_nil next later) noReturn.2 noFeed, split]
        rfl

end Text

namespace LineState

variable {chars : List Char} {depth deeper : Nat} {last : Char}

/-- The lines of a text that is read up to a semicolon or a brace are set in, each by the braces
    that are open before it. The induction is on the lines, since each of them is read behind the
    braces that the earlier ones leave open. -/
theorem lines_setIn (noReturn : '\r' ∉ chars) (closes : closesLine last = true)
    (read : (margin depth 0).run? chars = some (inside deeper last)) :
    (deeper : Int) = depth + openBraces (Text.lines chars).flatten ∧
      ∀ before line after, Text.lines chars = before ++ line :: after →
        SetIn (depth + openBraces before.flatten) line := by
  induction size : chars.length using Nat.strong_induction_on generalizing chars depth with
  | _ size inductionHypothesis =>
    subst size
    by_cases feed : '\n' ∈ chars
    case neg =>
      obtain ⟨set, braces⟩ := setIn_of_run? feed closes read
      rw [Text.lines_of_line set.ne_nil noReturn feed]
      refine ⟨by simpa using braces, fun before line after parts => ?_⟩
      obtain ⟨rfl, rfl, rfl⟩ : before = [] ∧ line = chars ∧ after = [] := by
        cases before with
        | nil => simpa [eq_comm] using parts
        | cons first others => simp at parts
      simpa [openBraces] using set
    case pos =>
      obtain ⟨first, rest, rfl, noFeed⟩ := List.eq_append_cons_of_mem feed
      simp only [List.mem_append, List.mem_cons, not_or] at noReturn
      rw [run?_append] at read
      obtain ⟨state, front, back⟩ := Option.bind_eq_some_iff.mp read
      rw [run?_cons] at back
      obtain ⟨next, taken, later⟩ := Option.bind_eq_some_iff.mp back
      obtain ⟨middle, ended, closes', rfl, rfl⟩ := of_step?_feed taken
      obtain ⟨set, braces⟩ := setIn_of_run? noFeed closes' front
      have filled := set.ne_nil
      have noFeed' : first.getLast? ≠ some '\n' := fun last =>
        noFeed (List.mem_of_getLast? last)
      have shorter : rest.length < (first ++ '\n' :: rest).length := by
        rw [List.length_append, List.length_cons]
        omega
      obtain ⟨total, each⟩ := inductionHypothesis _ shorter noReturn.2.2 later rfl
      rw [Text.lines_append filled noReturn.1 noFeed', Text.lines_of_line filled noReturn.1 noFeed,
        List.singleton_append, List.flatten_cons, openBraces_append]
      refine ⟨by omega, fun before line' after parts => ?_⟩
      cases before with
      | nil =>
        obtain ⟨rfl, rfl⟩ := List.cons.inj parts
        simpa [openBraces] using set
      | cons other before =>
        obtain ⟨rfl, below⟩ := List.cons.inj parts
        rw [List.flatten_cons, openBraces_append, ← Int.add_assoc, ← braces]
        exact each before line' after below

end LineState

end ShaderSource
