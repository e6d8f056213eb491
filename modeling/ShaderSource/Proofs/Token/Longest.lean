import Mathlib.Data.List.Basic
import Mathlib.Data.List.Find
import ShaderSource.Proofs.Token.Piece

/-!
# Where a piece ends

A lexical piece at the front of a text is what is read there, as long as the
text behind it does not go on with it: a letter behind a name, a digit behind a
number, or a sign that makes one symbol of two. So the text of a lexical piece
has no other class, and two pieces with one text are the same.
-/

namespace ShaderSource

namespace Lexeme

/-- Whether a character behind a symbol of one character is read along with it. -/
def continuesSymbol (symbol next : Char) : Bool :=
  symbols.any (fun (spelling, _) => spelling == [symbol, next]) ||
    (symbol == '/' && (next == '/' || next == '*')) || (symbol == '.' && next.isDigit)

/-- Whether a text begins with a point and a digit. -/
def beginsFraction : List Char → Bool
  | '.' :: digit :: _ => digit.isDigit
  | _ => false

end Lexeme

open Lexeme

/-- Whether what follows a piece is not read along with it. -/
def Piece.endsBefore (piece : Piece) (rest : List Char) : Bool :=
  match piece.kind with
  | .identifier => !rest.head?.any continuesIdentifier
  | .integer => !rest.head?.any Char.isDigit && !beginsFraction rest
  | .float => !rest.head?.any Char.isDigit
  | .string => true
  | _ =>
    match piece.text.toList with
    | [symbol] => !rest.head?.any (continuesSymbol symbol)
    | _ => true

namespace Lexeme

/-- A run ends where the rest of the text begins otherwise. -/
theorem runLength_append {property : Char → Bool} {run rest : List Char}
    (all : run.all property = true) (stops : rest.head?.any property = false) :
    runLength property (run ++ rest) = run.length := by
  have front : rest.takeWhile property = [] := by
    cases rest with
    | nil => rfl
    | cons next others =>
      have other : property next = false := by simpa using stops
      simp [other]
  rw [runLength, List.takeWhile_append_of_pos (by simpa using all), front, List.append_nil]

/-- Where no comment and no string begins, the class of a character decides how to read on. -/
theorem longest?_class {first : Char} {rest : List Char}
    (noLine : ∀ others, first = '/' → rest = '/' :: others → False)
    (noBlock : ∀ others, first = '/' → rest = '*' :: others → False)
    (noQuote : first ≠ '"') :
    longest? (first :: rest) =
      if Text.isBlank first then some (.gap, 1 + runLength Text.isBlank rest)
      else if beginsIdentifier first then
        some (.token .identifier, 1 + runLength continuesIdentifier rest)
      else
        match number? (first :: rest) with
        | some (kind, length) => some (.token kind, length)
        | none => (symbol? (first :: rest)).map fun (kind, length) => (.token kind, length) := by
  unfold longest?
  split
  case h_1 same => exact absurd same (List.cons_ne_nil first rest)
  case h_2 others same =>
    obtain ⟨slash, further⟩ := List.cons.inj same
    exact (noLine others slash further).elim
  case h_3 others same =>
    obtain ⟨slash, further⟩ := List.cons.inj same
    exact (noBlock others slash further).elim
  case h_4 same => exact absurd (List.cons.inj same).1 noQuote
  case h_5 same =>
    obtain ⟨rfl, rfl⟩ := List.cons.inj same
    rfl

/-- Away from comments and strings the class of a character decides how to read on. -/
theorem longest?_plain {first : Char} {rest : List Char} (noSlash : first ≠ '/')
    (noQuote : first ≠ '"') :
    longest? (first :: rest) =
      if Text.isBlank first then some (.gap, 1 + runLength Text.isBlank rest)
      else if beginsIdentifier first then
        some (.token .identifier, 1 + runLength continuesIdentifier rest)
      else
        match number? (first :: rest) with
        | some (kind, length) => some (.token kind, length)
        | none => (symbol? (first :: rest)).map fun (kind, length) => (.token kind, length) :=
  longest?_class (fun _ slash _ => noSlash slash) (fun _ slash _ => noSlash slash) noQuote

/-- Where no gap, string or name begins, a number is found, or else a symbol. -/
theorem longest?_other {first : Char} {rest : List Char}
    (noLine : ∀ others, first = '/' → rest = '/' :: others → False)
    (noBlock : ∀ others, first = '/' → rest = '*' :: others → False)
    (noQuote : first ≠ '"') (noBlank : ¬ Text.isBlank first = true)
    (noName : ¬ beginsIdentifier first = true) :
    longest? (first :: rest) =
      match number? (first :: rest) with
      | some (kind, length) => some (.token kind, length)
      | none => (symbol? (first :: rest)).map fun (kind, length) => (.token kind, length) :=
  (longest?_class noLine noBlock noQuote).trans ((if_neg noBlank).trans (if_neg noName))

/-- Digits have the codes from 48 to 57. -/
theorem isDigit_iff {char : Char} : char.isDigit = true ↔ 48 ≤ char.toNat ∧ char.toNat ≤ 57 := by
  simp only [Char.isDigit, Bool.and_eq_true, decide_eq_true_eq, UInt32.le_iff_toNat_le, ge_iff_le]
  rfl

/-- Identifiers begin with a letter, an underscore or a dollar sign. -/
theorem beginsIdentifier_iff {char : Char} :
    beginsIdentifier char = true ↔
      (65 ≤ char.toNat ∧ char.toNat ≤ 90) ∨ (97 ≤ char.toNat ∧ char.toNat ≤ 122) ∨
        char.toNat = 95 ∨ char.toNat = 36 := by
  have underscore : char = '_' ↔ char.toNat = 95 := (Char.toNat_inj (d := '_')).symm
  have dollar : char = '$' ↔ char.toNat = 36 := Char.toNat_inj.symm
  have letter : char.isAlpha = (decide (char.val ≥ 65 ∧ char.val ≤ 90) ||
      (decide (char.val ≥ 97) && decide (char.val ≤ 122))) := rfl
  simp only [beginsIdentifier, letter, Bool.or_eq_true, Bool.and_eq_true, decide_eq_true_eq,
    UInt32.le_iff_toNat_le, ge_iff_le, beq_iff_eq, or_assoc, underscore, dollar]
  rfl

/-- Letters, digits and the signs of names are no blanks. -/
theorem not_blank_of_continuesIdentifier {char : Char}
    (continues : continuesIdentifier char = true) :
    Text.isBlank char = false := by
  simp only [continuesIdentifier, Bool.or_eq_true, beginsIdentifier_iff, isDigit_iff] at continues
  simp only [Text.isBlank, Text.inRanges, Text.blankRanges, List.any_cons, List.any_nil,
    Bool.or_eq_false_iff, Bool.and_eq_false_iff, decide_eq_false_iff_not, Bool.or_false]
  omega

/-- No name goes on with a blank. -/
theorem continuesIdentifier_blank {char : Char} (blank : Text.isBlank char = true) :
    continuesIdentifier char = false := by
  rw [Bool.eq_false_iff]
  intro continues
  rw [not_blank_of_continuesIdentifier continues] at blank
  exact Bool.noConfusion blank

/-- A blank is no digit. -/
theorem isDigit_blank {char : Char} (blank : Text.isBlank char = true) : char.isDigit = false := by
  have noName := continuesIdentifier_blank blank
  simp only [continuesIdentifier, Bool.or_eq_false_iff] at noName
  exact noName.2

/-- There are no blanks in the fixed spellings. -/
theorem not_blank_of_mem_symbols {spelling : List Char} {kind : TokenKind}
    (fixed : (spelling, kind) ∈ symbols) : ∀ char ∈ spelling, Text.isBlank char = false := by
  have each : (symbols.all fun entry => entry.1.all fun char => !Text.isBlank char) = true := by
    decide
  intro char member
  simpa using List.all_eq_true.mp (List.all_eq_true.mp each _ fixed) char member

/-- No symbol goes on with a blank. -/
theorem continuesSymbol_blank {char : Char} (blank : Text.isBlank char = true) (symbol : Char) :
    continuesSymbol symbol char = false := by
  have other : ∀ sign : Char, Text.isBlank sign = false → char ≠ sign := by
    rintro sign visible rfl
    rw [blank] at visible
    exact Bool.noConfusion visible
  have noSpelling : (symbols.any fun (spelling, _) => spelling == [symbol, char]) = false := by
    rw [List.any_eq_false]
    intro entry member same
    exact other char (not_blank_of_mem_symbols member char (by simp [eq_of_beq same])) rfl
  simp [continuesSymbol, noSpelling, isDigit_blank blank, other '/' (by decide),
    other '*' (by decide)]

/-- A name is read as far as it goes. -/
theorem longest?_name {first : Char} (begins : beginsIdentifier first = true) (rest : List Char) :
    longest? (first :: rest) =
      some (.token .identifier, 1 + runLength continuesIdentifier rest) := by
  have noBlank : Text.isBlank first = false :=
    not_blank_of_continuesIdentifier (by simp [continuesIdentifier, begins])
  have noSlash : first ≠ '/' := by rintro rfl; exact absurd begins (by decide)
  have noQuote : first ≠ '"' := by rintro rfl; exact absurd begins (by decide)
  rw [longest?_plain noSlash noQuote, if_neg (by simp [noBlank]), if_pos begins]

/-- A name is read as a whole. -/
theorem longest?_identifier {chars rest : List Char} (written : identifierText chars = true)
    (ends : rest.head?.any continuesIdentifier = false) :
    longest? (chars ++ rest) = some (.token .identifier, chars.length) := by
  cases chars with
  | nil => simp [identifierText] at written
  | cons first others =>
    simp only [identifierText, Bool.and_eq_true] at written
    obtain ⟨begins, continues⟩ := written
    rw [List.cons_append, longest?_name begins, runLength_append continues ends, List.length_cons,
      Nat.add_comm]

/-- Digits in front of no further digit and no fraction are an integer. -/
theorem number?_integer {chars rest : List Char} (written : integerText chars = true)
    (noDigit : rest.head?.any Char.isDigit = false) (noFraction : beginsFraction rest = false) :
    number? (chars ++ rest) = some (.integer, chars.length) := by
  simp only [integerText, Bool.and_eq_true, Bool.not_eq_true', List.isEmpty_eq_false_iff] at written
  obtain ⟨some, digits⟩ := written
  have positive := List.length_pos_iff.mpr some
  simp only [number?, runLength_append digits noDigit, List.drop_left]
  cases rest with
  | nil => simp [positive]
  | cons next others =>
    by_cases point : next = '.'
    · subst point
      have none : others.head?.any Char.isDigit = false := by
        cases others with
        | nil => rfl
        | cons digit later => simpa [beginsFraction] using noFraction
      have empty : runLength Char.isDigit others = 0 := by
        have stopped : runLength Char.isDigit ([] ++ others) = 0 := runLength_append rfl none
        simpa using stopped
      simp [empty, positive]
    · simp [point, positive]

/-- A number with a fraction is read as a whole. -/
theorem number?_float {chars rest : List Char} (written : floatText chars = true)
    (noDigit : rest.head?.any Char.isDigit = false) :
    number? (chars ++ rest) = some (.float, chars.length) := by
  unfold floatText at written
  split at written
  case h_1 fraction behind =>
    simp only [integerText, Bool.and_eq_true, Bool.not_eq_true', List.isEmpty_eq_false_iff]
      at written
    obtain ⟨some, digits⟩ := written
    have positive := List.length_pos_iff.mpr some
    have parts : chars = chars.takeWhile Char.isDigit ++ '.' :: fraction := by
      rw [← behind, List.takeWhile_append_dropWhile]
    have whole : runLength Char.isDigit (chars ++ rest) = (chars.takeWhile Char.isDigit).length := by
      rw [parts, List.append_assoc, runLength_append List.all_takeWhile (by rfl), ← parts]
    have tail : (chars ++ rest).drop (chars.takeWhile Char.isDigit).length =
        '.' :: (fraction ++ rest) := by
      rw [parts, List.append_assoc, ← parts, List.drop_left]
      rfl
    have length : chars.length = (chars.takeWhile Char.isDigit).length + 1 + fraction.length := by
      conv => lhs; rw [parts]
      simp only [List.length_append, List.length_cons]
      omega
    simp only [number?, whole, tail, runLength_append digits noDigit, positive, if_true, length]
  case h_2 => simp at written

/-- A number that is found at a digit or a point is what is read there. -/
theorem longest?_number {first : Char} {rest : List Char} {kind : TokenKind} {length : Nat}
    (begins : first.isDigit = true ∨ first = '.')
    (found : number? (first :: rest) = some (kind, length)) :
    longest? (first :: rest) = some (.token kind, length) := by
  have noName : beginsIdentifier first = false := by
    rcases begins with digit | rfl
    · rw [Bool.eq_false_iff, ne_eq, beginsIdentifier_iff]
      rw [isDigit_iff] at digit
      omega
    · decide
  have noBlank : Text.isBlank first = false := by
    rcases begins with digit | rfl
    · exact not_blank_of_continuesIdentifier (by simp [continuesIdentifier, digit])
    · decide
  have noSlash : first ≠ '/' := by rintro rfl; revert begins; decide
  have noQuote : first ≠ '"' := by rintro rfl; revert begins; decide
  rw [longest?_plain noSlash noQuote, found]
  simp [noBlank, noName]

/-- A character that begins neither a gap, a string, a name nor a number begins a fixed
    spelling, if anything. -/
theorem longest?_fixed {first : Char} {rest : List Char}
    (other : (Text.isBlank first || beginsIdentifier first || first.isDigit || first == '"') = false)
    (noComment : ∀ next, rest.head? = some next → first = '/' → next ≠ '/' ∧ next ≠ '*')
    (noFraction : beginsFraction (first :: rest) = false) :
    longest? (first :: rest) =
      (symbol? (first :: rest)).map fun (kind, length) => (.token kind, length) := by
  simp only [Bool.or_eq_false_iff, beq_eq_false_iff_ne] at other
  obtain ⟨⟨⟨noBlank, noName⟩, noDigit⟩, noQuote⟩ := other
  have noNumber : number? (first :: rest) = none := by
    have whole : runLength Char.isDigit (first :: rest) = 0 := by simp [runLength, noDigit]
    by_cases point : first = '.'
    · subst point
      cases rest with
      | nil => rfl
      | cons next others =>
        have next : next.isDigit = false := noFraction
        simp [number?, runLength, next]
    · simp [number?, whole, point]
  rw [longest?_other ?line ?block noQuote (by simp [noBlank]) (by simp [noName]), noNumber]
  case line =>
    rintro others rfl same
    exact (noComment '/' (by rw [same]; rfl) rfl).1 rfl
  case block =>
    rintro others rfl same
    exact (noComment '*' (by rw [same]; rfl) rfl).2 rfl

/-- Only the first two characters of a text decide which fixed spelling it begins with. -/
theorem symbol?_take (chars : List Char) : symbol? chars = symbol? (chars.take 2) := by
  have lengths : ∀ entry ∈ symbols, entry.1.length ≤ 2 := by decide
  have same : ∀ entry ∈ symbols, entry.1.isPrefixOf chars = entry.1.isPrefixOf (chars.take 2) := by
    intro entry member
    rw [Bool.eq_iff_iff, List.isPrefixOf_iff_prefix, List.isPrefixOf_iff_prefix,
      List.prefix_take_iff]
    simp [lengths entry member]
  unfold symbol?
  rw [List.find?_congr same]

/-- A character that does not continue a symbol has no part in what is found there. -/
theorem symbol?_cons {symbol next : Char} {rest : List Char}
    (ends : continuesSymbol symbol next = false) :
    symbol? (symbol :: next :: rest) = symbol? [symbol] := by
  simp only [continuesSymbol, Bool.or_eq_false_iff, List.any_eq_false, beq_iff_eq] at ends
  have same : ∀ entry ∈ symbols,
      entry.1.isPrefixOf [symbol, next] = entry.1.isPrefixOf [symbol] := by
    intro entry member
    have other := ends.1.1 entry member
    rw [Bool.eq_iff_iff, List.isPrefixOf_iff_prefix, List.isPrefixOf_iff_prefix]
    constructor
    · intro front
      rcases List.prefix_concat_iff.mp (show entry.1 <+: [symbol] ++ [next] from front) with
        whole | shorter
      · exact absurd whole other
      · exact shorter
    · exact fun front => front.trans ⟨[next], rfl⟩
  rw [symbol?_take]
  simp only [symbol?, List.take_succ_cons, List.take_zero]
  rw [List.find?_congr same]

/-- A fixed spelling begins with no blank, name, digit or quote. -/
theorem head_of_mem_symbols {first : Char} {rest : List Char} {kind : TokenKind}
    (fixed : (first :: rest, kind) ∈ symbols) :
    (Text.isBlank first || beginsIdentifier first || first.isDigit || first == '"') = false := by
  have begins : (symbols.all fun entry => entry.1.head?.all fun first =>
      !(Text.isBlank first || beginsIdentifier first || first.isDigit || first == '"')) = true := by
    decide
  have each := List.all_eq_true.mp begins _ fixed
  rw [List.head?_cons, Option.all_some, Bool.not_eq_true'] at each
  exact each

/-- A fixed spelling alone is found as a whole. -/
theorem symbol?_of_mem {spelling : List Char} {kind : TokenKind}
    (fixed : (spelling, kind) ∈ symbols) : symbol? spelling = some (kind, spelling.length) := by
  have alone : ∀ entry ∈ symbols, symbol? entry.1 = some (entry.2, entry.1.length) := by decide
  exact alone _ fixed

/-- A spelling of one character is read, unless the next character goes on with it. -/
theorem longest?_single {symbol : Char} {rest : List Char} {kind : TokenKind}
    (fixed : ([symbol], kind) ∈ symbols)
    (ends : ∀ next, rest.head? = some next → continuesSymbol symbol next = false) :
    longest? (symbol :: rest) = some (.token kind, 1) := by
  have front : symbol? (symbol :: rest) = symbol? [symbol] := by
    cases rest with
    | nil => rfl
    | cons next others => exact symbol?_cons (ends next rfl)
  have noComment : ∀ next, rest.head? = some next → symbol = '/' → next ≠ '/' ∧ next ≠ '*' := by
    rintro next same rfl
    have stops := ends next same
    simp only [continuesSymbol, Bool.or_eq_false_iff] at stops
    simpa using stops.1.2
  have noFraction : beginsFraction (symbol :: rest) = false := by
    cases rest with
    | nil => simp [beginsFraction]
    | cons next others =>
      have stops := ends next rfl
      simp only [continuesSymbol, Bool.or_eq_false_iff] at stops
      by_cases point : symbol = '.'
      · subst point
        simpa [beginsFraction] using stops.2
      · simp [beginsFraction, point]
  rw [longest?_fixed (head_of_mem_symbols fixed) noComment noFraction, front, symbol?_of_mem fixed]
  rfl

/-- A spelling of two characters is read, whatever follows. -/
theorem longest?_double {first second : Char} (rest : List Char) {kind : TokenKind}
    (fixed : ([first, second], kind) ∈ symbols) :
    longest? (first :: second :: rest) = some (.token kind, 2) := by
  have apart : ∀ entry ∈ symbols, entry.1.length = 2 →
      entry.1.head? ≠ some '.' ∧ entry.1[1]? ≠ some '/' ∧ entry.1[1]? ≠ some '*' := by decide
  obtain ⟨noPoint, noSlash, noStar⟩ := apart _ fixed rfl
  have front : symbol? (first :: second :: rest) = symbol? [first, second] := by
    rw [symbol?_take]
    rfl
  have noComment : ∀ next, (second :: rest).head? = some next → first = '/' →
      next ≠ '/' ∧ next ≠ '*' := by
    rintro next same rfl
    obtain rfl : second = next := by simpa using same
    exact ⟨by simpa using noSlash, by simpa using noStar⟩
  have noFraction : beginsFraction (first :: second :: rest) = false := by
    have noPoint : first ≠ '.' := by simpa using noPoint
    simp [beginsFraction, noPoint]
  rw [longest?_fixed (head_of_mem_symbols fixed) noComment noFraction, front, symbol?_of_mem fixed]
  rfl

/-- A fixed spelling is read as a whole, unless the next character makes a longer one of
    it. -/
theorem longest?_symbol {spelling rest : List Char} {kind : TokenKind}
    (fixed : (spelling, kind) ∈ symbols)
    (ends : ∀ symbol next, spelling = [symbol] → rest.head? = some next →
      continuesSymbol symbol next = false) :
    longest? (spelling ++ rest) = some (.token kind, spelling.length) := by
  have lengths : ∀ entry ∈ symbols, entry.1.length = 1 ∨ entry.1.length = 2 := by decide
  rcases lengths _ fixed with one | two
  · obtain ⟨symbol, rfl⟩ := List.length_eq_one_iff.mp one
    exact longest?_single fixed fun next => ends symbol next rfl
  · obtain ⟨first, second, rfl⟩ := List.length_eq_two.mp two
    exact longest?_double rest fixed

end Lexeme

/-- A string ends at its closing quote, whatever follows. -/
theorem Lexeme.stringTail_append {chars rest : List Char} {length : Nat}
    (found : stringTail chars = some length) : stringTail (chars ++ rest) = some length := by
  fun_induction stringTail chars generalizing length with
  | case1 => simp at found
  | case2 => simpa [stringTail] using found
  | case3 => simp at found
  | case4 => simp at found
  | case5 escaped rest plain inductionHypothesis =>
    obtain ⟨inner, tail, rfl⟩ := Option.map_eq_some_iff.mp found
    simp [stringTail, plain, inductionHypothesis tail]
  | case6 char rest noQuote noEnd noEscape inductionHypothesis =>
    obtain ⟨inner, tail, rfl⟩ := Option.map_eq_some_iff.mp found
    have noBackslash := ne_backslash noEnd noEscape
    simp [stringTail, noBackslash, inductionHypothesis tail]

/-- A string is read as a whole, whatever follows. -/
theorem Lexeme.longest?_string {chars rest : List Char} (written : stringText chars = true) :
    longest? (chars ++ rest) = some (.token .string, chars.length) := by
  unfold stringText at written
  split at written
  case h_1 tail =>
    have whole : stringTail tail = some tail.length := by simpa using written
    simp only [List.cons_append, longest?, stringTail_append whole, Option.map_some,
      List.length_cons, Nat.add_comm]
  case h_2 => simp at written

/-- Whether a class has only fixed spellings. -/
def TokenKind.isFixed : TokenKind → Bool
  | .identifier | .integer | .float | .string => false
  | _ => true

/-- A lexical piece of a class with fixed spellings is one of the symbols. -/
theorem Piece.mem_symbols {piece : Piece} (lexical : piece.isLexical = true)
    (fixed : piece.kind.isFixed = true) : (piece.text.toList, piece.kind) ∈ symbols := by
  obtain ⟨kind, text⟩ := piece
  cases kind with
  | identifier | integer | float | string => exact Bool.noConfusion fixed
  | _ => simpa [isLexical] using lexical

/-- The end of the text ends every piece. -/
theorem Piece.endsBefore_nil (piece : Piece) : piece.endsBefore [] = true := by
  obtain ⟨kind, text⟩ := piece
  cases kind with
  | identifier | integer | float | string => rfl
  | _ =>
    simp only [endsBefore]
    split <;> rfl

/-- A blank ends every piece. -/
theorem Piece.endsBefore_blank (piece : Piece) {char : Char} (blank : Text.isBlank char = true)
    (rest : List Char) : piece.endsBefore (char :: rest) = true := by
  have noFraction : beginsFraction (char :: rest) = false := by
    have noPoint : char ≠ '.' := by
      rintro rfl
      exact absurd blank (by decide)
    simp [beginsFraction, noPoint]
  obtain ⟨kind, text⟩ := piece
  cases kind with
  | identifier => simp [endsBefore, continuesIdentifier_blank blank]
  | integer => simp [endsBefore, isDigit_blank blank, noFraction]
  | float => simp [endsBefore, isDigit_blank blank]
  | string => rfl
  | _ =>
    simp only [endsBefore, List.head?_cons, Option.any_some, continuesSymbol_blank blank]
    split <;> rfl

/-- A lexical piece at the front of a text is what is read there, if nothing behind it is
    read along with it. -/
theorem Piece.longest?_eq {piece : Piece} (lexical : piece.isLexical = true) {rest : List Char}
    (ends : piece.endsBefore rest = true) :
    longest? (piece.text.toList ++ rest) =
      some (.token piece.kind, piece.text.toList.length) := by
  by_cases fixed : piece.kind.isFixed = true
  · refine longest?_symbol (mem_symbols lexical fixed) fun symbol next same following => ?_
    obtain ⟨kind, text⟩ := piece
    dsimp only at same
    cases kind with
    | identifier | integer | float | string => exact Bool.noConfusion fixed
    | _ => simpa [endsBefore, same, following] using ends
  · obtain ⟨kind, text⟩ := piece
    cases kind with
    | identifier => exact longest?_identifier lexical (by simpa [endsBefore] using ends)
    | integer =>
      have written : integerText text.toList = true := lexical
      simp only [endsBefore, Bool.and_eq_true, Bool.not_eq_true'] at ends
      cases shown : text.toList with
      | nil => simp [shown, integerText] at written
      | cons first others =>
        have found := number?_integer written ends.1 ends.2
        rw [shown] at found written
        simp only [integerText, List.all_cons, Bool.and_eq_true] at written
        exact longest?_number (.inl written.2.1) found
    | float =>
      have written : floatText text.toList = true := lexical
      have noDigit : rest.head?.any Char.isDigit = false := by simpa [endsBefore] using ends
      have found := number?_float written noDigit
      cases shown : text.toList with
      | nil => simp [shown, floatText] at written
      | cons first others =>
        rw [shown] at found written
        refine longest?_number ?_ found
        by_cases digit : first.isDigit = true
        · exact .inl digit
        · refine .inr (Decidable.byContradiction fun noPoint => ?_)
          simp [floatText, digit, noPoint] at written
    | string => exact longest?_string lexical
    | _ => exact absurd rfl fixed

/-- The text of a lexical piece has only one class. -/
theorem Piece.eq_of_text {piece other : Piece} (lexical : piece.isLexical = true)
    (lexical' : other.isLexical = true) (same : piece.text = other.text) : piece = other := by
  have alone : ∀ shown : Piece, shown.isLexical = true →
      longest? shown.text.toList = some (.token shown.kind, shown.text.toList.length) := by
    intro shown lexical
    simpa using longest?_eq lexical shown.endsBefore_nil
  have kinds := (alone piece lexical).symm.trans (same ▸ alone other lexical')
  simp only [Option.some.injEq, Prod.mk.injEq, Lexeme.token.injEq] at kinds
  obtain ⟨kind, text⟩ := piece
  obtain ⟨kind', text'⟩ := other
  simp_all

end ShaderSource
