import Mathlib.Computability.Language
import ShaderSource.Proofs.Token.Longest

/-!
# The patterns of tokens and gaps

Each class of tokens and each kind of gap is declared by patterns. A pattern
stands for a language: it is put together from classes of characters and fixed
spellings by sequence, choice and repetition. Here the languages are compared
with the tests that are run on a text. A text fits a pattern of a class of
tokens exactly if it is a lexical piece of this class.
-/

namespace ShaderSource

open scoped Computability

namespace Lexeme

/-- One character with a property. -/
def oneOf (property : Char → Bool) : Language Char :=
  {text | ∃ char, property char = true ∧ text = [char]}

/-- A spelling and nothing else. -/
def spelt (spelling : List Char) : Language Char := {spelling}

/-- One text of a language or more, one behind the other. -/
def oneOrMore (texts : Language Char) : Language Char := texts * texts∗

/-- Blanks. -/
def blanks : Language Char := oneOrMore (oneOf Text.isBlank)

/-- Two slashes and the rest of their line. -/
def lineComment : Language Char := spelt ['/', '/'] * (oneOf (· != '\n'))∗

/-- Stars behind any characters but stars. -/
def starred : Language Char := (oneOf (· != '*'))∗ * oneOrMore (spelt ['*'])

/-- Characters that go on with a comment behind a star, up to the next run of stars. -/
def resumed : Language Char := oneOf (fun char => char != '/' && char != '*') * starred

/-- A slash and a star, and the text up to a star with a slash behind it. -/
def blockComment : Language Char :=
  spelt ['/', '*'] * starred * resumed∗ * spelt ['/']

/-- A sign that begins names, and then signs that continue them. -/
def identifier : Language Char := oneOf beginsIdentifier * (oneOf continuesIdentifier)∗

/-- Digits. -/
def integer : Language Char := oneOrMore (oneOf Char.isDigit)

/-- Digits behind a point, and maybe before it. -/
def float : Language Char :=
  (oneOf Char.isDigit)∗ * spelt ['.'] * oneOrMore (oneOf Char.isDigit)

/-- A character between the quotes of a string. Behind a backslash it is any but a line feed. -/
def quoted : Language Char :=
  oneOf (fun char => char != '"' && char != '\\') + spelt ['\\'] * oneOf (· != '\n')

/-- A string in its quotes. -/
def quotation : Language Char := spelt ['"'] * quoted∗ * spelt ['"']

/-- The classes that have only fixed spellings, with these. -/
def spellings : List (TokenKind × List (List Char)) :=
  [(.bracket, [['('], [')'], ['\x7b'], ['\x7d'], ['['], [']']]),
   (.operator, [['+'], ['-'], ['*'], ['/'], ['!'], ['%']]),
   (.equality, [['=', '='], ['!', '='], ['>', '='], ['<', '='], ['>'], ['<']]),
   (.boolop, [['|', '|'], ['&', '&']]),
   (.marker, [[','], [';'], [':'], ['.'], ['?'], ['|']]),
   (.assign, [['='], ['+', '='], ['-', '='], ['*', '='], ['/', '='], ['%', '=']]),
   (.crement, [['+', '+'], ['-', '-']])]

end Lexeme

/-- A pattern: what a text that fits it is, and the texts that fit. -/
structure Pattern where
  lexeme : Lexeme
  texts : Language Char

namespace Pattern

open Lexeme

/-- A fixed spelling of a class. -/
def ofSpelling (kind : TokenKind) (spelling : List Char) : Pattern :=
  ⟨.token kind, spelt spelling⟩

/-- All patterns, first those of the gaps. -/
def all : List Pattern :=
  [⟨.gap, blanks⟩, ⟨.gap, lineComment⟩, ⟨.gap, blockComment⟩,
    ⟨.token .identifier, identifier⟩, ⟨.token .integer, integer⟩, ⟨.token .float, float⟩] ++
  spellings.flatMap (fun (kind, spellings) => spellings.map (ofSpelling kind)) ++
  [⟨.token .string, quotation⟩]

end Pattern

namespace Lexeme

section Membership

variable {property : Char → Bool} {texts later : Language Char} {char : Char} {text rest : List Char}

/-- What begins with one character is not empty. -/
@[simp]
theorem nil_notMem_oneOf_mul : [] ∉ oneOf property * texts := by
  rintro ⟨_, ⟨char, _, rfl⟩, later, _, empty⟩
  exact absurd empty (by simp)

/-- The first character is the one asked for, and the rest is what stands behind it. -/
@[simp]
theorem cons_mem_oneOf_mul :
    char :: rest ∈ oneOf property * texts ↔ property char = true ∧ rest ∈ texts := by
  constructor
  · rintro ⟨_, ⟨first, holds, rfl⟩, later, member, same⟩
    obtain ⟨rfl, rfl⟩ := List.cons.inj same
    exact ⟨holds, member⟩
  · rintro ⟨holds, member⟩
    exact Language.append_mem_mul (a := [char]) ⟨char, holds, rfl⟩ member

/-- What begins with a spelling has the rest behind it. -/
theorem mem_spelt_mul {spelling : List Char} :
    text ∈ spelt spelling * texts ↔ ∃ rest ∈ texts, text = spelling ++ rest := by
  constructor
  · rintro ⟨_, rfl, rest, member, rfl⟩
    exact ⟨rest, member, rfl⟩
  · rintro ⟨rest, member, rfl⟩
    exact Language.append_mem_mul rfl member

/-- Only the spelling itself is spelt so. -/
@[simp]
theorem mem_spelt {spelling : List Char} : text ∈ spelt spelling ↔ text = spelling := Iff.rfl

/-- What begins with a spelt character is not empty. -/
@[simp]
theorem nil_notMem_spelt_mul {first : Char} : [] ∉ spelt [first] * texts := by
  simp [mem_spelt_mul]

/-- The first character is the spelt one, and the rest is what stands behind it. -/
@[simp]
theorem cons_mem_spelt_mul {first : Char} :
    char :: rest ∈ spelt [first] * texts ↔ char = first ∧ rest ∈ texts := by
  simp [mem_spelt_mul]
  grind

/-- A repetition stops, or goes on once more. -/
theorem kstar_mul (texts later : Language Char) :
    texts∗ * later = later + texts * (texts∗ * later) := by
  conv => lhs; rw [← Language.one_add_self_mul_kstar_eq_kstar texts]
  rw [add_mul, one_mul, mul_assoc]

/-- Any number of characters with a property. -/
theorem mem_kstar_oneOf : text ∈ (oneOf property)∗ ↔ text.all property = true := by
  rw [← mul_one (oneOf property)∗]
  induction text with
  | nil =>
    rw [kstar_mul, Language.mem_add]
    simp
  | cons char rest inductionHypothesis =>
    rw [kstar_mul, Language.mem_add, cons_mem_oneOf_mul, inductionHypothesis]
    simp [Language.mem_one]

/-- One character with a property or more. -/
theorem mem_oneOrMore_oneOf :
    text ∈ oneOrMore (oneOf property) ↔ text ≠ [] ∧ text.all property = true := by
  cases text with
  | nil => simp [oneOrMore]
  | cons char rest => simp [oneOrMore, mem_kstar_oneOf]

/-- A name is what the test for names accepts. -/
theorem mem_identifier : text ∈ identifier ↔ identifierText text = true := by
  cases text with
  | nil => simp [identifier, identifierText]
  | cons char rest => simp [identifier, identifierText, mem_kstar_oneOf]

/-- The texts that fit the pattern of integers are those that the check of integers accepts. -/
theorem mem_integer : text ∈ integer ↔ integerText text = true := by
  simp [integer, mem_oneOrMore_oneOf, integerText]

/-- The point of a float parts its digits, of which only the last ones are needed. -/
theorem exists_parts_of_mem_float (member : text ∈ float) :
    ∃ whole fraction, text = whole ++ '.' :: fraction ∧ whole.all Char.isDigit = true ∧
      integerText fraction = true := by
  rw [float, mul_assoc, Language.mem_mul] at member
  obtain ⟨whole, digits, _, pointed, rfl⟩ := member
  obtain ⟨fraction, further, rfl⟩ := mem_spelt_mul.mp pointed
  exact ⟨whole, fraction, rfl, mem_kstar_oneOf.mp digits, mem_integer.mp further⟩

/-- The texts that fit the pattern of float numbers are those that the check of float numbers
    accepts. -/
theorem mem_float : text ∈ float ↔ floatText text = true := by
  constructor
  · intro member
    obtain ⟨whole, fraction, rfl, digits, further⟩ := exists_parts_of_mem_float member
    exact floatText_point digits further
  · intro written
    unfold floatText at written
    split at written
    case h_1 fraction behind =>
      rw [float, mul_assoc, Language.mem_mul]
      refine ⟨text.takeWhile Char.isDigit, mem_kstar_oneOf.mpr List.all_takeWhile,
        text.dropWhile Char.isDigit, ?_, List.takeWhile_append_dropWhile⟩
      rw [behind]
      exact mem_spelt_mul.mpr ⟨fraction, mem_integer.mpr written, rfl⟩
    case h_2 => simp at written

/-- What is left of a string behind its opening quote is the closing quote, or a character, which
    a backslash takes with it, before what is left then. -/
theorem mem_quoted_kstar (text : List Char) : text ∈ quoted∗ * spelt ['"'] ↔ text = ['"'] ∨
    text ∈ oneOf (fun char => char != '"' && char != '\\') * (quoted∗ * spelt ['"']) ∨
      text ∈ spelt ['\\'] * (oneOf (· != '\n') * (quoted∗ * spelt ['"'])) := by
  have parts : quoted * (quoted∗ * spelt ['"']) =
      oneOf (fun char => char != '"' && char != '\\') * (quoted∗ * spelt ['"']) +
        spelt ['\\'] * (oneOf (· != '\n') * (quoted∗ * spelt ['"'])) := by
    conv => lhs; rw [quoted]
    rw [add_mul, mul_assoc, ← quoted]
  conv => lhs; rw [kstar_mul, parts, Language.mem_add, Language.mem_add, mem_spelt]

/-- The quoted characters with a quote behind them are those whose end is found at the end of the
    text. -/
theorem mem_quoted_iff : text ∈ quoted∗ * spelt ['"'] ↔ stringTail text = some text.length := by
  fun_induction stringTail text with
  | case1 => simp [mem_quoted_kstar]
  | case2 rest => simp [mem_quoted_kstar]
  | case3 => simp [mem_quoted_kstar]
  | case4 rest => simp [mem_quoted_kstar]
  | case5 escaped rest plain inductionHypothesis =>
    simp [mem_quoted_kstar ('\\' :: escaped :: rest), plain, inductionHypothesis]
  | case6 char rest noQuote noEnd noEscape inductionHypothesis =>
    have noBackslash := ne_backslash noEnd noEscape
    have noClosing : char ≠ '"' := noQuote
    rw [mem_quoted_kstar]
    simp [noClosing, noBackslash, inductionHypothesis]

/-- What is left of a comment behind other characters than stars is a star before what is left
    behind it, or another character. -/
theorem mem_starred_mul : text ∈ starred * texts ↔
    text ∈ oneOf (· != '*') * (starred * texts) ∨ text ∈ spelt ['*'] * ((spelt ['*'])∗ * texts) := by
  have parts : starred * texts =
      (oneOf (· != '*'))∗ * (spelt ['*'] * ((spelt ['*'])∗ * texts)) := by
    rw [starred, oneOrMore, mul_assoc, mul_assoc]
  rw [parts]
  conv => lhs; rw [kstar_mul, Language.mem_add]
  exact or_comm

/-- What is left of a comment behind a star is another star, the slash that closes the comment,
    or a character that goes on with it. -/
theorem mem_stars_resumed : text ∈ (spelt ['*'])∗ * (resumed∗ * spelt ['/']) ↔
    text = ['/'] ∨
      text ∈ oneOf (fun char => char != '/' && char != '*') *
        (starred * (resumed∗ * spelt ['/'])) ∨
      text ∈ spelt ['*'] * ((spelt ['*'])∗ * (resumed∗ * spelt ['/'])) := by
  have parts : resumed∗ * spelt ['/'] = spelt ['/'] +
      oneOf (fun char => char != '/' && char != '*') * (starred * (resumed∗ * spelt ['/'])) := by
    conv => lhs; rw [kstar_mul]
    conv => lhs; rhs; lhs; rw [resumed]
    rw [mul_assoc]
  conv => lhs; rw [kstar_mul, Language.mem_add]
  conv => lhs; lhs; rw [parts, Language.mem_add, mem_spelt]
  exact or_assoc

/-- What is left of a comment, behind any other character and behind a star. The two are followed
    together, since a star leads from the first to the second and a further character back. -/
theorem mem_comment_iff : (text ∈ starred * (resumed∗ * spelt ['/']) ↔
      blockCommentTail text = some text.length) ∧
    (text ∈ (spelt ['*'])∗ * (resumed∗ * spelt ['/']) ↔
      blockCommentTail ('*' :: text) = some (text.length + 1)) := by
  induction text with
  | nil =>
    rw [mem_starred_mul, mem_stars_resumed]
    simp [blockCommentTail]
  | cons char rest inductionHypothesis =>
    obtain ⟨open_, behind⟩ := inductionHypothesis
    rw [mem_starred_mul, mem_stars_resumed]
    simp only [cons_mem_oneOf_mul, cons_mem_spelt_mul, open_, behind]
    by_cases star : char = '*'
    · subst star
      simp [blockCommentTail]
    · by_cases slash : char = '/'
      · subst slash
        simp [blockCommentTail]
      · simp [blockCommentTail, star, slash]

/-- A block comment is an opening with a tail behind it whose end is found at the end of the text.
    -/
theorem mem_blockComment : text ∈ blockComment ↔
    ∃ rest, text = '/' :: '*' :: rest ∧ blockCommentTail rest = some rest.length := by
  rw [blockComment, mul_assoc, mul_assoc, mem_spelt_mul]
  constructor
  · rintro ⟨rest, member, rfl⟩
    exact ⟨rest, rfl, mem_comment_iff.1.mp member⟩
  · rintro ⟨rest, rfl, closed⟩
    exact ⟨rest, mem_comment_iff.1.mpr closed, rfl⟩

/-- The texts that fit the pattern of strings are those that the check of strings accepts. -/
theorem mem_quotation : text ∈ quotation ↔ stringText text = true := by
  rw [quotation, mul_assoc, mem_spelt_mul]
  cases text with
  | nil => simp [stringText]
  | cons char rest =>
    by_cases quote : char = '"'
    · subst quote
      simp [stringText, mem_quoted_iff]
    · simp [stringText, quote]

/-- Blanks are one or more. -/
theorem mem_blanks : text ∈ blanks ↔ text ≠ [] ∧ text.all Text.isBlank = true :=
  mem_oneOrMore_oneOf

/-- A line comment is two slashes and no line feed behind them. -/
theorem mem_lineComment : text ∈ lineComment ↔
    ∃ rest, text = '/' :: '/' :: rest ∧ rest.all (· != '\n') = true := by
  rw [lineComment, mem_spelt_mul]
  constructor
  · rintro ⟨rest, member, rfl⟩
    exact ⟨rest, rfl, mem_kstar_oneOf.mp member⟩
  · rintro ⟨rest, rfl, single⟩
    exact ⟨rest, mem_kstar_oneOf.mpr single, rfl⟩

end Membership

/-- The fixed spellings are those that are looked for. -/
theorem mem_symbols_iff {kind : TokenKind} {spelling : List Char} :
    (spelling, kind) ∈ symbols ↔ ∃ group ∈ spellings, group.1 = kind ∧ spelling ∈ group.2 := by
  have grouped : ∀ entry ∈ symbols, ∃ group ∈ spellings, group.1 = entry.2 ∧
      entry.1 ∈ group.2 := by decide
  have listed : ∀ group ∈ spellings, ∀ spelling ∈ group.2, (spelling, group.1) ∈ symbols := by
    decide
  constructor
  · exact grouped (spelling, kind)
  · rintro ⟨group, member, rfl, inside⟩
    exact listed group member spelling inside

end Lexeme

namespace Pattern

open Lexeme

/-- The patterns of the fixed spellings are those of the spellings that are looked for. -/
theorem mem_ofSpellings {pattern : Pattern} :
    pattern ∈ spellings.flatMap (fun (kind, spellings) => spellings.map (ofSpelling kind)) ↔
      ∃ kind spelling, (spelling, kind) ∈ symbols ∧ pattern = ofSpelling kind spelling := by
  simp only [List.mem_flatMap, List.mem_map, mem_symbols_iff]
  constructor
  · rintro ⟨group, member, spelling, inside, rfl⟩
    exact ⟨group.1, spelling, ⟨group, member, rfl, inside⟩, rfl⟩
  · rintro ⟨_, spelling, ⟨group, member, rfl, inside⟩, rfl⟩
    exact ⟨group, member, spelling, inside, rfl⟩

/-- The patterns, one after the other. -/
theorem mem_all {pattern : Pattern} : pattern ∈ all ↔
    pattern = ⟨.gap, blanks⟩ ∨ pattern = ⟨.gap, lineComment⟩ ∨ pattern = ⟨.gap, blockComment⟩ ∨
      pattern = ⟨.token .identifier, identifier⟩ ∨ pattern = ⟨.token .integer, integer⟩ ∨
      pattern = ⟨.token .float, float⟩ ∨
      (∃ kind spelling, (spelling, kind) ∈ symbols ∧ pattern = ofSpelling kind spelling) ∨
      pattern = ⟨.token .string, quotation⟩ := by
  rw [all, List.mem_append, List.mem_append, mem_ofSpellings]
  simp only [List.mem_cons, List.not_mem_nil, or_false, or_assoc]

end Pattern

end ShaderSource
