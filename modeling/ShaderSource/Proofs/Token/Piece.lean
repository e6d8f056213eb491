import ShaderSource.Token.Lexer

/-!
# What a parser sees of a token

A parser decides by the class and the text of a token, never by its place. This
pair is a piece. The pieces that can occur in a source text are the lexical
ones: the text has the form that its class prescribes. Every token that is read
from a source text shows a lexical piece.
-/

namespace ShaderSource

/-- The class and the text of a token. -/
structure Piece where
  kind : TokenKind
  text : String
  deriving DecidableEq, Repr

/-- A token without its place. -/
def Token.piece (token : Token) : Piece := ⟨token.kind, token.text⟩

namespace Lexeme

/-- A letter, an underscore or a dollar sign, and then any number of these and of digits. -/
def identifierText : List Char → Bool
  | [] => false
  | first :: rest => beginsIdentifier first && rest.all continuesIdentifier

/-- One digit or more. -/
def integerText (chars : List Char) : Bool := !chars.isEmpty && chars.all Char.isDigit

/-- Any number of digits, a point, and one digit or more. -/
def floatText (chars : List Char) : Bool :=
  match chars.dropWhile Char.isDigit with
  | '.' :: fraction => integerText fraction
  | _ => false

/-- A quote, and then a text whose first closing quote is its last character. -/
def stringText : List Char → Bool
  | '"' :: rest => stringTail rest == some rest.length
  | _ => false

end Lexeme

namespace Piece

open Lexeme

/-- Whether the text has the form that the class prescribes. -/
def isLexical (piece : Piece) : Bool :=
  match piece.kind with
  | .identifier => identifierText piece.text.toList
  | .integer => integerText piece.text.toList
  | .float => floatText piece.text.toList
  | .string => stringText piece.text.toList
  | kind => symbols.contains (piece.text.toList, kind)

/-- A lexical piece without blanks in it: any but a string. -/
structure Plain (piece : Piece) : Prop where
  lexical : piece.isLexical = true
  noString : piece.kind ≠ .string

instance (piece : Piece) : Decidable piece.Plain :=
  decidable_of_iff (piece.isLexical = true ∧ piece.kind ≠ .string)
    ⟨fun ⟨lexical, noString⟩ => ⟨lexical, noString⟩, fun plain => ⟨plain.lexical, plain.noString⟩⟩

end Piece

namespace Lexeme

/-- The front of a text as long as its run is the run itself. -/
theorem take_runLength (property : Char → Bool) (chars : List Char) :
    chars.take (runLength property chars) = chars.takeWhile property :=
  (List.prefix_iff_eq_take.mp (List.takeWhile_prefix property)).symm

/-- What follows the run at the front of a text. -/
theorem drop_runLength (property : Char → Bool) (chars : List Char) :
    chars.drop (runLength property chars) = chars.dropWhile property := by
  have whole : chars.takeWhile property ++ chars.drop (runLength property chars) =
      chars.takeWhile property ++ chars.dropWhile property := by
    rw [← take_runLength, List.take_append_drop, take_runLength, List.takeWhile_append_dropWhile]
  exact List.append_cancel_left whole

/-- A character that neither ends a string nor hides the character behind it is no backslash. -/
theorem ne_backslash {char : Char} {rest : List Char} (noEnd : char = '\\' → rest = [] → False)
    (noEscape : ∀ escaped later, char = '\\' → rest = escaped :: later → False) :
    char ≠ '\\' := by
  rintro rfl
  cases rest with
  | nil => exact noEnd rfl rfl
  | cons escaped later => exact noEscape escaped later rfl rfl

/-- A string ends inside its text, and what follows it has no part in that. -/
theorem stringTail_take {chars : List Char} {length : Nat}
    (found : stringTail chars = some length) :
    length ≤ chars.length ∧ stringTail (chars.take length) = some length := by
  fun_induction stringTail chars generalizing length with
  | case1 => simp at found
  | case2 rest =>
    obtain rfl := Option.some.inj found
    simp [stringTail]
  | case3 => simp at found
  | case4 => simp at found
  | case5 escaped rest plain inductionHypothesis =>
    obtain ⟨inner, tail, rfl⟩ := Option.map_eq_some_iff.mp found
    obtain ⟨bound, again⟩ := inductionHypothesis tail
    constructor
    · simp only [List.length_cons]; omega
    · simp [List.take_succ_cons, stringTail, plain, again]
  | case6 char rest noQuote noEnd noEscape inductionHypothesis =>
    obtain ⟨inner, tail, rfl⟩ := Option.map_eq_some_iff.mp found
    obtain ⟨bound, again⟩ := inductionHypothesis tail
    have noBackslash := ne_backslash noEnd noEscape
    constructor
    · simp only [List.length_cons]; omega
    · simp [List.take_succ_cons, stringTail, noBackslash, again]

/-- Digits, a point and digits are a float, of which only the last digits are needed. -/
theorem floatText_point {whole fraction : List Char} (digits : whole.all Char.isDigit = true)
    (tail : integerText fraction = true) : floatText (whole ++ '.' :: fraction) = true := by
  have rest : (whole ++ '.' :: fraction).dropWhile Char.isDigit = '.' :: fraction := by
    rw [List.dropWhile_append_of_pos (by simpa using digits)]
    rfl
  simp only [floatText, rest, tail]

/-- A run of digits that is not empty is an integer. -/
theorem integerText_takeWhile {chars : List Char} (some : 0 < runLength Char.isDigit chars) :
    integerText (chars.takeWhile Char.isDigit) = true := by
  have filled : chars.takeWhile Char.isDigit ≠ [] := List.ne_nil_of_length_pos some
  simp [integerText, filled]

/-- A number that is found at the front of a text has the form of its class. -/
theorem number?_lexical {chars : List Char} {kind : TokenKind} {length : Nat}
    (found : number? chars = some (kind, length)) :
    (⟨kind, String.ofList (chars.take length)⟩ : Piece).isLexical = true := by
  unfold number? at found
  have front := take_runLength Char.isDigit chars
  extract_lets whole fraction at found
  split at found
  case isTrue pointed =>
    obtain ⟨rfl, rfl⟩ := Prod.mk.inj (Option.some.inj found)
    obtain ⟨rest, behind, counted⟩ : ∃ rest, chars.drop whole = '.' :: rest ∧
        fraction = runLength Char.isDigit rest := by
      revert pointed
      simp only [fraction]
      split
      case h_1 rest behind => exact fun _ => ⟨rest, behind, rfl⟩
      case h_2 => exact fun impossible => absurd impossible (Nat.lt_irrefl 0)
    have taken : chars.take (whole + 1 + fraction) =
        chars.takeWhile Char.isDigit ++ '.' :: rest.takeWhile Char.isDigit := by
      rw [Nat.add_assoc, List.take_add, behind, front, counted, Nat.add_comm 1,
        List.take_succ_cons, take_runLength]
    simp only [Piece.isLexical, String.toList_ofList, taken]
    exact floatText_point List.all_takeWhile (integerText_takeWhile (counted ▸ pointed))
  case isFalse =>
    split at found
    case isTrue filled =>
      obtain ⟨rfl, rfl⟩ := Prod.mk.inj (Option.some.inj found)
      simpa only [Piece.isLexical, String.toList_ofList, whole, front] using integerText_takeWhile filled
    case isFalse => simp at found

/-- A fixed spelling that is found at the front of a text is one of its class. -/
theorem symbol?_lexical {chars : List Char} {kind : TokenKind} {length : Nat}
    (found : symbol? chars = some (kind, length)) :
    (chars.take length, kind) ∈ symbols := by
  simp only [symbol?, Option.map_eq_some_iff] at found
  obtain ⟨⟨spelling, kind'⟩, first, same⟩ := found
  obtain ⟨rfl, rfl⟩ := Prod.mk.inj same
  have leads : spelling.isPrefixOf chars = true := by simpa using List.find?_some first
  obtain ⟨rest, rfl⟩ := List.isPrefixOf_iff_prefix.mp leads
  simpa using List.mem_of_find?_eq_some first

/-- A fixed spelling is a lexical piece of its class. -/
theorem isLexical_symbol {spelling : List Char} {kind : TokenKind}
    (fixed : (spelling, kind) ∈ symbols) :
    (⟨kind, String.ofList spelling⟩ : Piece).isLexical = true := by
  have each : ∀ entry ∈ symbols,
      (⟨entry.2, String.ofList entry.1⟩ : Piece).isLexical = true := by decide
  exact each _ fixed

/-- A token that is found at the front of a text shows a lexical piece. -/
theorem longest?_lexical {chars : List Char} {kind : TokenKind} {length : Nat}
    (found : longest? chars = some (.token kind, length)) :
    (⟨kind, String.ofList (chars.take length)⟩ : Piece).isLexical = true := by
  revert found
  fun_cases longest? chars with
  | case1 => nofun
  | case2 => nofun
  | case3 => nofun
  | case4 rest unclosed =>
    intro found
    simp only [Option.some.injEq, Prod.mk.injEq, token.injEq] at found
    obtain ⟨rfl, rfl⟩ := found
    have slash : (['/'], TokenKind.operator) ∈ symbols := by decide
    exact isLexical_symbol slash
  | case5 rest =>
    intro found
    obtain ⟨inner, tail, same⟩ := Option.map_eq_some_iff.mp found
    simp only [Prod.mk.injEq, token.injEq] at same
    obtain ⟨rfl, rfl⟩ := same
    obtain ⟨bound, again⟩ := stringTail_take tail
    simp [Piece.isLexical, stringText, Nat.add_comm 1, again, bound]
  | case6 => nofun
  | case7 char rest _ _ _ _ begins =>
    intro found
    simp only [Option.some.injEq, Prod.mk.injEq, token.injEq] at found
    obtain ⟨rfl, rfl⟩ := found
    have further : (rest.takeWhile continuesIdentifier).all continuesIdentifier = true :=
      List.all_takeWhile
    rw [Nat.add_comm, List.take_succ_cons, take_runLength]
    simp only [Piece.isLexical, String.toList_ofList, identifierText, begins, further, Bool.and_self]
  | case8 char rest _ _ _ _ _ kind' length' number =>
    intro found
    simp only [Option.some.injEq, Prod.mk.injEq, token.injEq] at found
    obtain ⟨rfl, rfl⟩ := found
    exact number?_lexical number
  | case9 char rest _ _ _ _ _ _ =>
    intro found
    obtain ⟨⟨kind', length'⟩, symbol, same⟩ := Option.map_eq_some_iff.mp found
    simp only [Prod.mk.injEq, token.injEq] at same
    obtain ⟨rfl, rfl⟩ := same
    exact isLexical_symbol (symbol?_lexical symbol)

end Lexeme

namespace Lexer

/-- A token that is read from a text shows a lexical piece, and the reader goes on behind it. -/
theorem lexical_of_read {chars : List Char} {offset : Nat} {token : Token} {after : Lexer}
    (taken : read chars offset = some (.ok token, after)) :
    token.piece.isLexical = true ∧ after.failed = false := by
  fun_induction read chars offset with
  | case1 => simp at taken
  | case2 => simp at taken
  | case3 offset char tail length piece rest next found inductionHypothesis =>
    exact inductionHypothesis taken
  | case4 offset char tail length piece rest next kind found =>
    obtain ⟨same, rfl⟩ := Prod.mk.inj (Option.some.inj taken)
    obtain rfl := Except.ok.inj same
    exact ⟨Lexeme.longest?_lexical found, rfl⟩

end Lexer

/-- Every token of a source text shows a lexical piece. -/
theorem Lexed.ofChars_lexical (chars : List Char) (offset : Nat) :
    ∀ token ∈ (ofChars chars offset).tokens, token.piece.isLexical = true := by
  fun_induction ofChars chars offset with
  | case1 => simp
  | case2 => simp
  | case3 chars offset token after taken later inductionHypothesis =>
    intro shown member
    rcases List.mem_cons.mp member with rfl | member
    · exact (Lexer.lexical_of_read taken).1
    · exact inductionHypothesis shown member

end ShaderSource
