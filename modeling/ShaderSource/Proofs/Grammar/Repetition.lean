import ShaderSource.Proofs.Grammar.Attempt

/-!
# Nested and repeated reading

The three judgements about attempts are carried over to readers of nodes, and
from a reader to the attempts that use it once or again and again. What a round
of a repetition keeps true of the pieces taken so far, the whole repetition
keeps true. Every round that takes a piece advances, so a repetition never ends
early.
-/

namespace ShaderSource

namespace NodeReader

/-- Every node that the reader finds before lexical pieces takes some of them, and node and
    pieces meet a condition. -/
def Reads (reader : NodeReader) (flags : Flags) (subject : Option Node)
    (condition : Node → List Piece → Prop) : Prop :=
  ∀ place node after, place.Lexical → reader flags subject place = .ok (some (node, after)) →
    ∃ consumed, place.pieces = consumed ++ after.pieces ∧ condition node consumed

/-- The reader takes some pieces in front of others as a node. -/
def Takes (reader : NodeReader) (flags : Flags) (subject : Option Node)
    (taken later : List Piece) (node : Node) : Prop :=
  ∀ place, place.pieces = taken ++ later →
    ∃ after, reader flags subject place = .ok (some (node, after)) ∧ after.pieces = later

/-- The reader finds no node before some pieces. -/
def Refuses (reader : NodeReader) (flags : Flags) (subject : Option Node)
    (pieces : List Piece) : Prop :=
  ∀ place, place.pieces = pieces → reader flags subject place = .ok none

end NodeReader

namespace Attempt

variable {α σ : Type} {setting : Setting} {flags : Flags}

/-- A node is read exactly if the nested reader finds it. -/
theorem node_eq_ok {place after : Place} {value : Node} :
    node flags setting place = .ok (value, after) ↔
      setting.nested flags none place = .ok (some (value, after)) := by
  unfold node
  split <;> simp_all

/-- A nested node is read as the reader of the setting reads it. -/
theorem reads_node {condition : Node → List Piece → Prop}
    (reads : NodeReader.Reads setting.nested flags none condition) :
    (node flags).Reads setting condition := fun place value after lexical success =>
  reads place value after lexical (node_eq_ok.mp success)

/-- A nested node is taken as the reader of the setting takes it. -/
theorem takes_node {taken later : List Piece} {value : Node}
    (takes : NodeReader.Takes setting.nested flags none taken later value) :
    (node flags).Takes setting taken later fun read => read = value := by
  intro place split
  obtain ⟨after, found, behind⟩ := takes place split
  exact ⟨value, after, by simp [Attempt.node, found], rfl, behind⟩

/-- What the reader of the setting refuses does not fit. -/
theorem rejects_node {pieces : List Piece}
    (refuses : NodeReader.Refuses setting.nested flags none pieces) :
    (node flags).Rejects setting pieces := by
  intro place split
  simp [Attempt.node, refuses place split]

section Repeat

variable {going : Place → Bool} {part : Nat → σ → Attempt σ}

/-- What every round keeps true of the pieces taken so far, a repetition keeps true. The
    induction is on the number of tokens that are left. -/
theorem reads_repeatWhen {holds : Nat → σ → List Piece → Prop}
    (kept : ∀ rounds made taken, holds rounds made taken →
      (part rounds made).Reads setting fun result consumed =>
        holds (rounds + 1) result (taken ++ consumed))
    {rounds : Nat} {made : σ} {taken : List Piece} (start : holds rounds made taken) :
    (repeatWhen going part rounds made).Reads setting fun result consumed =>
      ∃ total, holds total result (taken ++ consumed) := by
  intro place result final lexical success
  induction size : place.rest.length using Nat.strongRecOn
    generalizing rounds made taken place with
  | ind bound inductionHypothesis =>
    rw [repeatWhen] at success
    split at success
    case isFalse =>
      obtain ⟨rfl, rfl⟩ := Prod.mk.inj (Except.ok.inj success)
      exact ⟨[], rfl, rounds, by simpa using start⟩
    case isTrue =>
      split at success
      case h_1 => simp at success
      case h_2 made' after round =>
        obtain ⟨consumed, split, next⟩ := kept rounds made taken start place made' after lexical round
        split at success
        case isTrue advances =>
          obtain ⟨others, split', total, ends⟩ :=
            inductionHypothesis after.rest.length (size ▸ advances) next after
              (lexical.of_append split) success rfl
          exact ⟨consumed ++ others, by rw [split, split', List.append_assoc], total,
            by rwa [← List.append_assoc]⟩
        case isFalse =>
          obtain ⟨rfl, rfl⟩ := Prod.mk.inj (Except.ok.inj success)
          exact ⟨consumed, split, rounds + 1, next⟩

/-- A repetition ends where it is not to go on. -/
theorem takes_repeatWhen_stop {rounds : Nat} {made : σ} {later : List Piece}
    (stopped : ∀ place, place.pieces = later → going place = false) :
    (repeatWhen going part rounds made).Takes setting [] later fun result => result = made := by
  intro place split
  refine ⟨made, place, ?_, rfl, split⟩
  rw [repeatWhen]
  simp [stopped place split]

/-- One round that takes some piece, and then the other rounds. -/
theorem takes_repeatWhen_step {rounds : Nat} {made next : σ} {taken middle later : List Piece}
    {condition : σ → Prop}
    (goes : ∀ place, place.pieces = taken ++ (middle ++ later) → going place = true)
    (progress : taken ≠ [])
    (round : (part rounds made).Takes setting taken (middle ++ later) fun result => result = next)
    (others : (repeatWhen going part (rounds + 1) next).Takes setting middle later condition) :
    (repeatWhen going part rounds made).Takes setting (taken ++ middle) later condition := by
  intro place split
  rw [List.append_assoc] at split
  obtain ⟨result, after, read, rfl, behind⟩ := round place split
  obtain ⟨final, last, read', met, behind'⟩ := others after behind
  have advances := Place.advances (behind ▸ split) progress
  refine ⟨final, last, ?_, met, behind'⟩
  rw [repeatWhen]
  simp only [goes place split, if_true, read, advances]
  exact read'

end Repeat

section Trailing

/-- What grows behind a value keeps a condition that every step keeps, and nothing more fits
    behind the result. -/
theorem reads_trailingChain {holds : Node → List Piece → Prop}
    (grown : ∀ value taken, holds value taken →
      NodeReader.Reads setting.nested .trailing (some value) fun longer consumed =>
        consumed ≠ [] ∧ holds longer (taken ++ consumed))
    {value : Node} {taken : List Piece} (start : holds value taken) {place final : Place}
    {result : Node} (lexical : place.Lexical)
    (success : trailingChain value setting place = .ok (result, final)) :
    ∃ consumed, place.pieces = consumed ++ final.pieces ∧ holds result (taken ++ consumed) ∧
      setting.nested .trailing (some result) final = .ok none := by
  induction size : place.rest.length using Nat.strongRecOn
    generalizing value taken place with
  | ind bound inductionHypothesis =>
    rw [trailingChain] at success
    unfold trailing? at success
    cases found : setting.nested .trailing (some value) place with
    | error error => simp [found] at success
    | ok next =>
      cases next with
      | none =>
        simp only [found, Except.ok.injEq, Prod.mk.injEq] at success
        obtain ⟨rfl, rfl⟩ := success
        exact ⟨[], rfl, by simpa using start, found⟩
      | some step =>
        obtain ⟨longer, after⟩ := step
        obtain ⟨consumed, split, some, next⟩ :=
          grown value taken start place longer after lexical found
        have advances := Place.advances split some
        simp only [found, advances, if_true] at success
        obtain ⟨others, split', ends, halted⟩ :=
          inductionHypothesis after.rest.length (size ▸ advances) next
            (lexical.of_append split) success rfl
        exact ⟨consumed ++ others, by rw [split, split', List.append_assoc],
          by rwa [← List.append_assoc], halted⟩

/-- A chain ends where no link is found. -/
theorem takes_trailingChain_stop {value : Node} {later : List Piece}
    (refuses : NodeReader.Refuses setting.nested .trailing (some value) later) :
    (trailingChain value).Takes setting [] later fun result => result = value := by
  intro place split
  refine ⟨value, place, ?_, rfl, split⟩
  rw [trailingChain]
  simp [trailing?, refuses place split]

/-- One step behind a value, and then what grows behind the longer value. -/
theorem takes_trailingChain_step {value longer : Node} {taken middle later : List Piece}
    {condition : Node → Prop} (progress : taken ≠ [])
    (step : NodeReader.Takes setting.nested .trailing (some value) taken (middle ++ later) longer)
    (others : (trailingChain longer).Takes setting middle later condition) :
    (trailingChain value).Takes setting (taken ++ middle) later condition := by
  intro place split
  rw [List.append_assoc] at split
  obtain ⟨after, found, behind⟩ := step place split
  obtain ⟨final, last, read, met, behind'⟩ := others after behind
  have advances := Place.advances (behind ▸ split) progress
  refine ⟨final, last, ?_, met, behind'⟩
  rw [trailingChain]
  simp only [trailing?, found, advances, if_true]
  exact read

end Trailing

end Attempt

section Lists

variable {reader : NodeReader} {flags : Flags}

/-- A list of nodes takes the pieces of its nodes one after the other. At its end the reader
    finds no further node. -/
theorem readNodes_reads {pieces : Node → List Piece} {holds : Node → Prop}
    (each : reader.Reads flags none fun node consumed =>
      consumed = pieces node ∧ consumed ≠ [] ∧ holds node)
    {place final : Place} {nodes : List Node} (lexical : place.Lexical)
    (success : readNodes reader flags place = .ok (nodes, final)) :
    place.pieces = nodes.flatMap pieces ++ final.pieces ∧ (∀ node ∈ nodes, holds node) ∧
      reader flags none final = .ok none := by
  induction size : place.rest.length using Nat.strongRecOn generalizing place nodes with
  | ind bound inductionHypothesis =>
    rw [readNodes] at success
    split at success
    case h_1 => simp at success
    case h_2 found =>
      obtain ⟨rfl, rfl⟩ := Prod.mk.inj (Except.ok.inj success)
      exact ⟨rfl, by simp, found⟩
    case h_3 node after found =>
      obtain ⟨consumed, split, rfl, some, met⟩ := each place node after lexical found
      have advances := Place.advances split some
      rw [if_pos advances] at success
      split at success
      case h_1 => simp at success
      case h_2 others last rest =>
        obtain ⟨rfl, rfl⟩ := Prod.mk.inj (Except.ok.inj success)
        obtain ⟨split', met', halted⟩ :=
          inductionHypothesis after.rest.length (size ▸ advances) (lexical.of_append split) rest rfl
        refine ⟨by rw [split, split', List.flatMap_cons, List.append_assoc], ?_, halted⟩
        intro other member
        rcases List.mem_cons.mp member with rfl | member
        · exact met
        · exact met' other member

/-- A list of nodes is read if each of them is, in front of those that follow it, and no
    further node is found at its end. -/
theorem readNodes_takes {pieces : Node → List Piece} {later : List Piece}
    (ends : reader.Refuses flags none later) :
    ∀ nodes : List Node,
      (∀ before node after, nodes = before ++ node :: after →
        pieces node ≠ [] ∧
          reader.Takes flags none (pieces node) (after.flatMap pieces ++ later) node) →
      ∀ place, place.pieces = nodes.flatMap pieces ++ later →
        ∃ final, readNodes reader flags place = .ok (nodes, final) ∧ final.pieces = later := by
  intro nodes
  induction nodes with
  | nil =>
    intro _ place split
    exact ⟨place, by rw [readNodes, ends place split], split⟩
  | cons node nodes inductionHypothesis =>
    intro each place split
    obtain ⟨some, takes⟩ := each [] node nodes rfl
    rw [List.flatMap_cons, List.append_assoc] at split
    obtain ⟨after, found, behind⟩ := takes place split
    obtain ⟨final, rest, behind'⟩ := inductionHypothesis
      (fun before other others same => each (node :: before) other others (by rw [same]; rfl))
      after behind
    have advances := Place.advances (behind ▸ split) some
    exact ⟨final, by rw [readNodes, found]; simp only [advances, if_true, rest], behind'⟩

/-- What a list of nodes may stop before: the end of everything, or its terminator. -/
def Ends (terminator : Option String) (later : List Piece) : Prop :=
  ∀ piece, later.head? = some piece → terminator = some piece.text

/-- A list that is read is the pieces of its nodes, one after the other. -/
theorem readList_reads {pieces : Node → List Piece} {holds : Node → Prop}
    {terminator : Option String}
    (each : reader.Reads flags none fun node consumed =>
      consumed = pieces node ∧ consumed ≠ [] ∧ holds node)
    {place final : Place} {nodes : List Node} (lexical : place.Lexical)
    (success : readList reader flags terminator place = .ok (nodes, final)) :
    place.pieces = nodes.flatMap pieces ++ final.pieces ∧ (∀ node ∈ nodes, holds node) ∧
      reader flags none final = .ok none ∧ Ends terminator final.pieces := by
  unfold readList at success
  split at success
  case h_1 => simp at success
  case h_2 nodes' after read =>
    split at success
    case h_1 empty =>
      obtain ⟨rfl, rfl⟩ := Prod.mk.inj (Except.ok.inj success)
      obtain ⟨split, met, halted⟩ := readNodes_reads each lexical read
      exact ⟨split, met, halted, by simp [Ends, Place.pieces, empty]⟩
    case h_2 token rest shown =>
      split at success
      case isTrue ended =>
        obtain ⟨rfl, rfl⟩ := Prod.mk.inj (Except.ok.inj success)
        obtain ⟨split, met, halted⟩ := readNodes_reads each lexical read
        refine ⟨split, met, halted, ?_⟩
        intro piece first
        simp only [Place.pieces, shown, List.map_cons, List.head?_cons, Option.some.injEq] at first
        rw [ended, ← first]
        rfl
      case isFalse => simp at success

/-- A list is read node by node, each in front of the pieces of the others. -/
theorem readList_takes {pieces : Node → List Piece} {later : List Piece}
    {terminator : Option String} (ends : reader.Refuses flags none later)
    (ended : Ends terminator later) {nodes : List Node}
    (each : ∀ before node after, nodes = before ++ node :: after →
      pieces node ≠ [] ∧
        reader.Takes flags none (pieces node) (after.flatMap pieces ++ later) node)
    {place : Place} (split : place.pieces = nodes.flatMap pieces ++ later) :
    ∃ final, readList reader flags terminator place = .ok (nodes, final) ∧
      final.pieces = later := by
  obtain ⟨final, read, behind⟩ := readNodes_takes ends nodes each place split
  refine ⟨final, ?_, behind⟩
  unfold readList
  rw [read]
  cases shown : final.rest with
  | nil => simp only [shown]
  | cons token rest =>
    have stopped : terminator = some token.text :=
      ended token.piece (by rw [← behind]; simp [Place.pieces, shown])
    simp only [shown, stopped, if_true]

end Lists

namespace Attempt

variable {setting : Setting} {flags : Flags} {pieces : Node → List Piece}

/-- Nested nodes that are read are their pieces, up to the terminator. -/
theorem reads_nodes {holds : Node → Prop} {terminator : String}
    (each : NodeReader.Reads setting.nested flags none fun node consumed =>
      consumed = pieces node ∧ consumed ≠ [] ∧ holds node)
    {ended : Prop} (halts : ∀ place, setting.nested flags none place = .ok none → ended) :
    (nodes flags terminator).Reads setting fun read consumed =>
      consumed = read.flatMap pieces ∧ (∀ node ∈ read, holds node) ∧ ended := by
  intro place read after lexical success
  unfold nodes at success
  split at success
  case h_1 read' after' found =>
    obtain ⟨rfl, rfl⟩ := Prod.mk.inj (Except.ok.inj success)
    obtain ⟨split, met, halted, _⟩ := readList_reads each lexical found
    exact ⟨_, split, rfl, met, halts _ halted⟩
  case h_2 => simp at success

/-- Nested nodes are read one by one up to the terminator. -/
theorem takes_nodes {later : List Piece} {terminator : String} {read : List Node}
    (ends : NodeReader.Refuses setting.nested flags none later)
    (ended : Ends (some terminator) later)
    (each : ∀ before node after, read = before ++ node :: after →
      pieces node ≠ [] ∧ NodeReader.Takes setting.nested flags none (pieces node)
        (after.flatMap pieces ++ later) node) :
    (nodes flags terminator).Takes setting (read.flatMap pieces) later fun result =>
      result = read := by
  intro place split
  obtain ⟨final, found, behind⟩ := readList_takes ends ended each split
  exact ⟨read, final, by simp [nodes, found], rfl, behind⟩

end Attempt

end ShaderSource
