import ShaderSource.Proofs.Token.Typeset
import ShaderSource.Proofs.Tree.Opening
import ShaderSource.Tree.Printer

/-!
# Typeset texts side by side

A typeset text can go on behind any piece that does not run into it. Behind a
name or a number that is a blank, a bracket or a mark; behind a bracket, a comma
or a semicolon it is anything. So lists with commas, lines below each other and
bodies in braces are typeset from the pieces of their items.
-/

namespace ShaderSource

open Lexeme

/-- Whatever is apart from a text in front of it, the text is apart from it too. -/
def Begins (chars : List Char) : Prop := ∀ rest, apart rest = true → apart (chars ++ rest) = true

/-- The empty text keeps apart what follows it. -/
theorem begins_nil : Begins [] := fun _ free => free

/-- A text that begins otherwise than with a sign of a name or a point is apart. -/
theorem begins_cons {char : Char} {chars : List Char} (free : continuesIdentifier char = false)
    (noPoint : char ≠ '.') : Begins (char :: chars) := by
  intro rest _
  simp [apart, free, beginsFraction, noPoint]

namespace Piece

/-- What is apart from a name or a number ends it. -/
theorem endsBefore_of_apart {piece : Piece}
    (open_ : piece.kind = .identifier ∨ piece.kind = .integer ∨ piece.kind = .float)
    {rest : List Char} (free : apart rest = true) : piece.endsBefore rest = true := by
  simp only [apart, Bool.and_eq_true, Bool.not_eq_true'] at free
  have noDigit : rest.head?.any Char.isDigit = false := by
    cases rest with
    | nil => rfl
    | cons next others =>
      have other : continuesIdentifier next = false := by simpa using free.1
      simp only [continuesIdentifier, Bool.or_eq_false_iff] at other
      simpa using other.2
  obtain ⟨kind, text⟩ := piece
  rcases open_ with rfl | rfl | rfl
  · simp [endsBefore, free.1]
  · simp [endsBefore, noDigit, free.2]
  · simp [endsBefore, noDigit]

/-- The brackets and marks that are never read along with what follows. -/
def lone : List Piece :=
  [bracket "(", bracket ")", bracket "\x7b", bracket "\x7d", comma, semicolon]

/-- A bracket or a mark ends where it stands, whatever follows. -/
theorem endsBefore_lone {piece : Piece} (alone : piece ∈ lone) (rest : List Char) :
    piece.endsBefore rest = true := by
  have ends : ∀ symbol ∈ ['(', ')', '\x7b', '\x7d', ',', ';'], ∀ next,
      continuesSymbol symbol next = false := by
    simp [continuesSymbol, symbols]
  have each : ∀ symbol : Char, symbol ∈ ['(', ')', '\x7b', '\x7d', ',', ';'] →
      (!rest.head?.any (continuesSymbol symbol)) = true := by
    intro symbol member
    cases rest with
    | nil => rfl
    | cons next others => simp [ends symbol member next]
  simp only [lone, List.mem_cons, List.not_mem_nil, or_false] at alone
  rcases alone with rfl | rfl | rfl | rfl | rfl | rfl
  · exact each '(' (by simp)
  · exact each ')' (by simp)
  · exact each '\x7b' (by simp)
  · exact each '\x7d' (by simp)
  · exact each ',' (by simp)
  · exact each ';' (by simp)

end Piece

/-- A text that ends otherwise than with a line feed. -/
def EndsLine (text : String) : Prop := text.toList ≠ [] ∧ text.toList.getLast? ≠ some '\n'

/-- A text ends its line if what stands behind it does. -/
theorem endsLine_append (text : String) {last : String} (ends : EndsLine last) :
    EndsLine (text ++ last) := by
  obtain ⟨some, plain⟩ := ends
  constructor
  · simp [some]
  · rwa [String.toList_append, List.getLast?_append, Option.or_of_isSome (by simpa using some)]

/-- A body ends with its brace. -/
theorem endsLine_bracedBody (statements : List String) : EndsLine (bracedBody statements) := by
  unfold bracedBody
  split
  · exact ⟨by decide, by decide⟩
  · exact endsLine_append _ ⟨by decide, by decide⟩

/-- Lines below each other end as the last of them does. -/
theorem endsLine_lines {items : List String} (filled : items ≠ [])
    (each : ∀ item ∈ items, EndsLine item) : EndsLine ("\n".intercalate items) := by
  have known : ∀ chars ∈ items.map String.toList, chars ≠ [] ∧ chars.getLast? ≠ some '\n' :=
    List.forall_mem_map.mpr each
  rw [EndsLine, String.toList_intercalate]
  exact Text.getLast?_intercalate (by simpa using filled) known

namespace Typeset

variable {chars : List Char} {pieces : List Piece}

/-- A name or a number in front of a text that is apart from it. -/
theorem loose (piece : Piece) (lexical : piece.isLexical = true)
    (open_ : piece.kind = .identifier ∨ piece.kind = .integer ∨ piece.kind = .float)
    (begins : Begins chars) (later : Typeset chars pieces) :
    Typeset (piece.text.toList ++ chars) (piece :: pieces) := by
  refine .piece ⟨lexical, ?_⟩ (fun rest free => ?_) later
  · rcases open_ with kind | kind | kind <;> simp [kind]
  · exact Piece.endsBefore_of_apart open_ (begins rest free)

/-- A bracket or a mark in front of any text. -/
theorem lone (piece : Piece) (alone : piece ∈ Piece.lone) (later : Typeset chars pieces) :
    Typeset (piece.text.toList ++ chars) (piece :: pieces) := by
  have each : ∀ piece ∈ Piece.lone, piece.Plain := by decide
  exact .piece (each piece alone) (fun rest _ => Piece.endsBefore_lone alone _) later

/-- A piece with a space behind it. -/
theorem spaced (piece : Piece) (plain : piece.Plain)
    (later : Typeset chars pieces) :
    Typeset (piece.text.toList ++ ' ' :: chars) (piece :: pieces) :=
  .piece plain (fun _ _ => piece.endsBefore_blank (by decide) _) (.blank (.inl rfl) later)

/-- A name with a space behind it. -/
theorem name {name : String} (named : isNameText name = true) (later : Typeset chars pieces) :
    Typeset (name.toList ++ ' ' :: chars) (.word name :: pieces) :=
  spaced (.word name) (Piece.plain_word named) later

/-- The `;` of a closed statement, or nothing. -/
theorem statementEnd (closed : Bool) :
    Typeset (ShaderSource.statementEnd closed).toList (Piece.statementEnd closed) := by
  cases closed with
  | false => exact .done
  | true => exact lone .semicolon (by decide) .done

/-- The end of a statement keeps apart what follows. -/
theorem begins_statementEnd (closed : Bool) : Begins (ShaderSource.statementEnd closed).toList := by
  cases closed with
  | false => exact begins_nil
  | true => exact begins_cons (by decide) (by decide)

/-- A word with a `;` right behind it. -/
theorem ended (text : String) (lexical : (Piece.word text).isLexical = true) :
    Typeset (text.toList ++ ";".toList) [.word text, .semicolon] :=
  loose (.word text) lexical (.inl rfl)
    (begins_cons (by decide : continuesIdentifier ';' = false) (by decide))
    (lone .semicolon (by decide) .done)

section Items

variable {α : Type} {text : α → String} {parts : α → List Piece}

/-- Items with a separator in front of each of them can stand behind another item. -/
theorem separated (separator : List Char) (sign : List Piece)
    (front : ∀ chars, Begins (separator ++ chars))
    (between : ∀ {chars pieces}, Typeset chars pieces →
      Typeset (separator ++ chars) (sign ++ pieces))
    {items : List α} (each : ∀ item ∈ items, Typeset (text item).toList (parts item))
    (begins : Begins chars) (later : Typeset chars pieces) :
    Begins (items.flatMap (fun item => separator ++ (text item).toList) ++ chars) ∧
      Typeset (items.flatMap (fun item => separator ++ (text item).toList) ++ chars)
        (items.flatMap (fun item => sign ++ parts item) ++ pieces) := by
  induction items with
  | nil => exact ⟨begins, later⟩
  | cons item items inductionHypothesis =>
    rw [List.forall_mem_cons] at each
    obtain ⟨apart, typeset⟩ := inductionHypothesis each.2
    simp only [List.flatMap_cons, List.append_assoc]
    exact ⟨front _, between (each.1.append typeset apart)⟩

/-- The items of a list have commas between them. -/
theorem listed {items : List α} (each : ∀ item ∈ items, Typeset (text item).toList (parts item))
    (begins : Begins chars) (later : Typeset chars pieces) :
    Typeset ((", ".intercalate (items.map text)).toList ++ chars)
      (Piece.listed (items.map parts) ++ pieces) := by
  cases items with
  | nil => exact later
  | cons first others =>
    rw [List.forall_mem_cons] at each
    obtain ⟨apart, typeset⟩ := separated ", ".toList [.comma]
      (fun _ => begins_cons (by decide) (by decide)) (spaced .comma (by decide)) each.2 begins later
    rw [String.toList_intercalate, List.map_cons, List.map_cons, Text.intercalate_cons,
      List.map_cons, Piece.listed, List.map_map, List.flatMap_map, List.flatMap_map,
      List.append_assoc, List.append_assoc]
    exact each.1.append typeset apart

/-- The items of a program or a body stand on lines of their own. -/
theorem lines {items : List α} (each : ∀ item ∈ items, Typeset (text item).toList (parts item)) :
    Typeset ("\n".intercalate (items.map text)).toList (items.flatMap parts) := by
  cases items with
  | nil => exact .done
  | cons first others =>
    rw [List.forall_mem_cons] at each
    obtain ⟨apart, typeset⟩ := separated "\n".toList []
      (fun _ => begins_cons (by decide) (by decide)) (.blank (.inr rfl)) each.2 begins_nil .done
    simp only [List.append_nil] at apart typeset
    rw [String.toList_intercalate, List.map_cons, List.map_cons, Text.intercalate_cons,
      List.map_map, List.flatMap_map, List.flatMap_cons]
    exact each.1.append typeset apart

/-- A body in braces has its items on lines of their own, each set in by one step. -/
theorem braced {items : List α} (each : ∀ item ∈ items, Typeset (text item).toList (parts item))
    (ends : ∀ item ∈ items, EndsLine (text item)) :
    Typeset (bracedBody (items.map text)).toList (Piece.braced (items.map parts)) := by
  cases items with
  | nil =>
    rw [List.map_nil, List.map_nil]
    exact lone (.bracket "\x7b") (by decide) (lone (.bracket "\x7d") (by decide) .done)
  | cons first others =>
    have typeset := lines each
    obtain ⟨filled, noFeed⟩ :=
      endsLine_lines (List.cons_ne_nil _ _) (List.forall_mem_map.mpr ends)
    have shown : bracedBody ((first :: others).map text) =
        "\x7b\n" ++ Text.indent ("\n".intercalate ((first :: others).map text)) ++ "\n\x7d" := rfl
    have opening : "\x7b\n".toList = (Piece.bracket "\x7b").text.toList ++ ['\n'] := by decide
    rw [shown, Piece.braced, String.toList_append, String.toList_append, opening,
      List.append_assoc, List.append_assoc, List.cons_append, List.nil_append]
    apply lone (.bracket "\x7b") (by decide)
    apply blank (.inr rfl)
    apply (typeset.indent filled noFeed).append
    · exact .blank (.inr rfl) (lone (.bracket "\x7d") (by decide) .done)
    · exact begins_cons (by decide) (by decide)

end Items

end Typeset

end ShaderSource
