import ShaderSource.Proofs.RoundTrip
import ShaderSource.Proofs.Tree.Exchange
import ShaderSource.Proofs.Tree.Frame
import ShaderSource.Proofs.Tree.Occurrences
import ShaderSource.Proofs.Tree.Owners

/-!
# Renaming the variables of a program

A walk can give another name to each use of a variable. The program keeps its
shape and its nesting, so its printed text is compiled to it again, and this
text has the tokens of the source but for the names at the uses of variables.
Names that are declared, assigned or given to properties and parameters are no
nodes of their own, and they stay.
-/

namespace ShaderSource

/-- The walker that gives another name to each use of a variable. -/
def renamer (rename : String → String) : Walker Unit :=
  Walker.empty.on .reference fun
    | .reference name => pure (.replace (.reference (rename name)))
    | _ => pure .keep

/-- Some trees with other names at the uses of variables. -/
def renamed (rename : String → String) (nodes : List Node) : List Node :=
  ((renamer rename).walk nodes ()).1

/-- The pieces of a program with the kinds of the nodes that own them. -/
def ownedProgram (nodes : List Node) : List (NodeKind × Piece) := nodes.flatMap (Node.owned true)

/-- An owned piece with another name if it is the use of a variable. -/
def renamedPiece (rename : String → String) : NodeKind × Piece → Piece
  | (.reference, piece) => ⟨piece.kind, rename piece.text⟩
  | (_, piece) => piece

namespace Node

/-- The piece that the use of a variable is written as. -/
def use? : Node → Option Piece
  | reference name => some (.word name)
  | _ => none

/-- The use of a variable under another name. -/
def otherName (rename : String → String) : Node → Option Node
  | reference name => some (.reference (rename name))
  | _ => none

variable {rename : String → String}

/-- Only variables are exchanged, and for variables. -/
theorem eq_of_otherName {node replacement : Node}
    (found : node.otherName rename = some replacement) :
    ∃ name, node = .reference name ∧ replacement = .reference (rename name) := by
  cases node with
  | reference name => exact ⟨name, rfl, (Option.some.inj found).symm⟩
  | _ => exact nomatch found

/-- Renaming keeps the kind of every node. -/
theorem kind_renamed (node : Node) : (node.exchanged (otherName rename)).kind = node.kind := by
  cases found : node.otherName rename with
  | some replacement =>
    obtain ⟨name, rfl, rfl⟩ := eq_of_otherName found
    rw [exchanged_of_some found]
    rfl
  | none => rw [exchanged_of_none found, kind_mapChildren]

/-- The nesting does not depend on names. -/
theorem Within.renamed {limit level : Nat} {node : Node} (within : node.Within limit level) :
    (node.exchanged (otherName rename)).Within limit level := by
  induction node using Node.childrenInduction generalizing level with
  | step node inductionHypothesis =>
    cases found : node.otherName rename with
    | some replacement =>
      obtain ⟨name, rfl, rfl⟩ := eq_of_otherName found
      rw [exchanged_of_some found]
      exact within
    | none =>
      rw [exchanged_of_none found]
      exact within.mapChildren fun child member _ => inductionHypothesis child member

/-- The owners of the pieces stay, and so do all pieces but the uses of variables. -/
theorem owned_renamed (closed : Bool) (node : Node) :
    (node.exchanged (otherName rename)).owned closed =
      (node.owned closed).map fun own => (own.1, renamedPiece rename own) := by
  induction node using Node.childrenInduction generalizing closed with
  | step node inductionHypothesis =>
    cases found : node.otherName rename with
    | some replacement =>
      obtain ⟨name, rfl, rfl⟩ := eq_of_otherName found
      rw [exchanged_of_some found, owned_eq, owned_eq]
      rfl
    | none =>
      rw [exchanged_of_none found, owned_eq, owned_eq, parts_mapChildren, kind_mapChildren,
        List.flatMap_map, List.map_flatMap]
      apply List.flatMap_congr
      intro part member
      cases part with
      | child inner child =>
        exact inductionHypothesis child (mem_children_of_mem_parts member) inner
      | piece piece =>
        cases node with
        | reference => exact nomatch found
        | _ => rfl

end Node

section Names

variable {rename : String → String}
  (names : ∀ name, isNameText name = true → isNameText (rename name) = true)

include names

/-- A variable has the shape of a variable under every name. -/
theorem Shaped.reference_renamed {category : Category} {node : Node} {name : String}
    (shaped : Shaped category node) (same : node = .reference name) :
    Shaped category (.reference (rename name)) := by
  induction shaped with
  | reference named =>
    obtain rfl := Node.reference.inj same
    exact .reference (names _ named)
  | ofPrimary _ found => exact .ofPrimary (found same)
  | ofOperand _ found => exact .ofOperand (found same)
  | ofClause _ found => exact .ofClause (found same)
  | ofStatement _ found => exact .ofStatement (found same)
  | _ => exact Node.noConfusion same

/-- The shape does not depend on the names of variables. -/
theorem Shaped.renamed {category : Category} {node : Node} (shaped : Shaped category node) :
    Shaped category (node.exchanged (Node.otherName rename)) := by
  induction node using Node.childrenInduction generalizing category with
  | step node inductionHypothesis =>
    cases found : node.otherName rename with
    | some replacement =>
      obtain ⟨name, rfl, rfl⟩ := Node.eq_of_otherName found
      rw [Node.exchanged_of_some found]
      exact shaped.reference_renamed names rfl
    | none =>
      rw [Node.exchanged_of_none found]
      exact shaped.mapChildren (fun child _ => child.kind_renamed)
        fun child member _ => inductionHypothesis child member

end Names

/-- The renamer exchanges exactly the variables. -/
theorem renamer_exchanges (rename : String → String) :
    (renamer rename).Exchanges (Node.otherName rename) where
  verdict := by
    intro node visitor state known
    cases node with
    | reference =>
      obtain rfl := Option.some.inj known
      rfl
    | _ => exact nomatch known
  others := by
    intro node absent
    cases node with
    | reference => exact nomatch absent
    | _ => rfl

/-- Renaming exchanges the variables in each tree. -/
theorem renamed_eq (rename : String → String) (nodes : List Node) :
    renamed rename nodes = nodes.map (Node.exchanged (Node.otherName rename)) := by
  rw [renamed, (renamer_exchanges rename).walk_eq]

section Programs

variable {rename : String → String} {nodes : List Node}

/-- Renaming nests nothing deeper. -/
theorem NestedProgram.renamed {limit : Nat} (nested : NestedProgram limit nodes) :
    NestedProgram limit (renamed rename nodes) := by
  rw [renamed_eq]
  exact ⟨nested.1, nested.2.map fun node _ _ within => within.renamed⟩

/-- A renamed program keeps its shape if names are renamed to names. -/
theorem ShapedProgram.renamed (shaped : ShapedProgram nodes)
    (names : ∀ name, isNameText name = true → isNameText (rename name) = true) :
    ShapedProgram (renamed rename nodes) := by
  rw [renamed_eq]
  exact List.forall_mem_map.mpr fun node member => (shaped node member).renamed names

/-- The owned pieces of a program are its pieces. -/
theorem ShapedProgram.owned_pieces (shaped : ShapedProgram nodes) :
    (ownedProgram nodes).map Prod.snd = programPieces nodes := by
  rw [ownedProgram, List.map_flatMap, programPieces]
  exact List.flatMap_congr fun node member => (shaped node member).owned_pieces true

/-- The pieces of a renamed program are those of the program, with those of variables renamed. -/
theorem ownedProgram_renamed (rename : String → String) (nodes : List Node) :
    ownedProgram (renamed rename nodes) =
      (ownedProgram nodes).map fun own => (own.1, renamedPiece rename own) := by
  simp only [ownedProgram, renamed_eq, List.flatMap_map, List.map_flatMap, Node.owned_renamed]

/-- The owned pieces that are uses of variables are the variables that occur in a program. -/
theorem ownedProgram_uses (nodes : List Node) :
    ((ownedProgram nodes).filter fun own => own.1 = .reference).map Prod.snd =
      (occurrences nodes).filterMap Node.use? := by
  rw [ownedProgram, List.filter_flatMap, List.map_flatMap, occurrences_eq, List.filterMap_flatMap]
  apply List.flatMap_congr
  intro node _
  apply Node.owned_filter fun kind => kind = .reference
  · intro node piece found
    cases node with
    | reference =>
      obtain rfl := Option.some.inj found
      exact ⟨rfl, fun _ => rfl⟩
    | _ => exact nomatch found
  · intro node absent
    cases node with
    | reference => exact nomatch absent
    | _ => rfl

end Programs

/-- A program in which every use of a variable is given another name is compiled from its printed
    text. This text has the tokens of the source, with the other names at the tokens that were
    read as uses of variables: those that the variables in the program own, in their order. -/
theorem compile_renamed {rename : String → String}
    (names : ∀ name, isNameText name = true → isNameText (rename name) = true)
    {source : String} {nodes : List Node} (accepted : compile source = .ok nodes) :
    compile (renderProgram (renamed rename nodes)) = .ok (renamed rename nodes) ∧
      ∃ read written, (tokenize source).tokens? = .ok read ∧
        (tokenize (renderProgram (renamed rename nodes))).tokens? = .ok written ∧
        read.map Token.piece = (ownedProgram nodes).map Prod.snd ∧
        written.map Token.piece = (ownedProgram nodes).map (renamedPiece rename) ∧
        ((ownedProgram nodes).filter fun own => own.1 = .reference).map Prod.snd =
          (occurrences nodes).filterMap Node.use? := by
  obtain ⟨read, complete, shown, shaped, nested⟩ := exists_of_compile accepted
  have shaped' := shaped.renamed names
  obtain ⟨written, complete', shown'⟩ := shaped'.tokens?
  refine ⟨shaped'.compile_printed nested.renamed, read, written, complete, complete', ?read,
    ?written, ownedProgram_uses nodes⟩
  case read => rw [shown, shaped.owned_pieces]
  case written =>
    rw [shown', ← shaped'.owned_pieces, ownedProgram_renamed, List.map_map]
    rfl

/-- The uses of `a` become uses of `b` here, also in an argument and before a point. What is
    declared or assigned under this name keeps it, and so does the property. -/
theorem compile_renamed_uses :
    let rename : String → String := fun name => if name = "a" then "b" else name
    let source := "float f(float a) \x7b a += a.a * f(a); \x7d float a = a;"
    (∀ name, isNameText name = true → isNameText (rename name) = true) ∧
      ∃ nodes, compile source = .ok nodes ∧
        renderProgram (renamed rename nodes) =
          "float f(float a) \x7b\n    a += b.a * f(b);\n\x7d\nfloat a = b;" ∧
        compile (renderProgram (renamed rename nodes)) = .ok (renamed rename nodes) ∧
        ∃ read written, (tokenize source).tokens? = .ok read ∧
          (tokenize (renderProgram (renamed rename nodes))).tokens? = .ok written ∧
          read.map Token.piece = (ownedProgram nodes).map Prod.snd ∧
          written.map Token.piece = (ownedProgram nodes).map (renamedPiece rename) ∧
          ((ownedProgram nodes).filter fun own => own.1 = .reference).map Prod.snd =
            (occurrences nodes).filterMap Node.use? := by
  intro rename source
  have names : ∀ name, isNameText name = true → isNameText (rename name) = true := by
    intro name named
    change isNameText (if name = "a" then "b" else name) = true
    split
    · decide
    · exact named
  have accepted : compile source = .ok [
      .function "float" "f" [⟨"float", "a"⟩] [.assignment "a" .addAssign (.binary [.mul]
        [.property (.reference "a") "a", .call (.reference "f") [.reference "a"]])],
      .declaration none "float" "a" (some (.reference "a"))] := by
    decide +kernel
  refine ⟨names, _, accepted, ?printed, compile_renamed names accepted⟩
  case printed => decide +kernel

end ShaderSource
