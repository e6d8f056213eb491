import ShaderSource.Proofs.Tree.Filling

/-!
# Walks to which the limit of edits makes no difference

The number of edits inside one another is limited only so that every walk ends; the
rules of a walk know no limit. Where the visitors make no more edits inside one another
than the limit lets them, each greater limit gives the same walk, and so the walk is the
one without a limit. Visitors that only exchange nodes make no edits, and visitors that
fill nodes make none inside others.
-/

namespace ShaderSource.Walker

variable {σ : Type} {walker : Walker σ}

/-- No more than some edits are made inside one another when a node is visited, whatever the state
    is. The children of a node that is never kept do not count. -/
inductive EditsWithin (walker : Walker σ) : Nat → Node → Prop
  | visit {edits : Nat} {node : Node}
    (kept : ∀ child ∈ node.children,
      (∀ visitor, walker.visitor? node.kind = some visitor →
        ∃ state, (visitor node state).1 = .keep) → EditsWithin walker edits child)
    (left : ∀ visitor state changed, walker.visitor? node.kind = some visitor →
      (visitor node state).1 = .edit changed → 0 < edits)
    (edited : ∀ visitor state changed, walker.visitor? node.kind = some visitor →
      (visitor node state).1 = .edit changed →
        ∀ child ∈ changed.children, EditsWithin walker (edits - 1) child) :
    EditsWithin walker edits node

section Congruence

variable {edited other : Node → StateM σ Node}

/-- A node is visited alike with two ways to go on in edited nodes. -/
def VisitsAlike (walker : Walker σ) (edited other : Node → StateM σ Node) (node : Node) : Prop :=
  walker.judge edited node (walker.descend edited node) =
    walker.judge other node (walker.descend other node)

/-- Nodes that are visited alike are so one after the other. -/
theorem descendList_congr {nodes : List Node}
    (alike : ∀ node ∈ nodes, walker.VisitsAlike edited other node) :
    walker.descendList edited nodes = walker.descendList other nodes := by
  induction nodes with
  | nil => rfl
  | cons node nodes inductionHypothesis =>
    rw [List.forall_mem_cons] at alike
    rw [descendList, descendList, alike.1, inductionHypothesis alike.2]

/-- A node that may be missing is visited alike if it is so where it is there. -/
theorem descendOption_congr {value : Option Node}
    (alike : ∀ node ∈ value.toList, walker.VisitsAlike edited other node) :
    walker.descendOption edited value = walker.descendOption other value := by
  cases value with
  | none => rfl
  | some node => rw [descendOption, descendOption, alike node List.mem_cons_self]

/-- A body that may be missing is visited alike if its nodes are. -/
theorem descendOptionList_congr {last : Option (List Node)}
    (alike : ∀ node ∈ last.getD [], walker.VisitsAlike edited other node) :
    walker.descendOptionList edited last = walker.descendOptionList other last := by
  cases last with
  | none => rfl
  | some nodes =>
    rw [Option.getD_some] at alike
    rw [descendOptionList, descendOptionList, descendList_congr alike]

/-- A branch is visited alike if its condition and its statements are. -/
theorem descendBranch_congr {branch : Branch}
    (alike : ∀ node ∈ branch.children, walker.VisitsAlike edited other node) :
    walker.descendBranch edited branch = walker.descendBranch other branch := by
  cases branch with
  | mk condition body =>
    rw [Branch.children, List.forall_mem_cons] at alike
    rw [descendBranch, descendBranch, alike.1, descendList_congr alike.2]

/-- Branches that are visited alike are so one after the other. -/
theorem descendBranches_congr {branches : List Branch}
    (alike : ∀ node ∈ branches.flatMap Branch.children, walker.VisitsAlike edited other node) :
    walker.descendBranches edited branches = walker.descendBranches other branches := by
  induction branches with
  | nil => rfl
  | cons branch branches inductionHypothesis =>
    rw [List.flatMap_cons, List.forall_mem_append] at alike
    rw [descendBranches, descendBranches, descendBranch_congr alike.1,
      inductionHypothesis alike.2]

/-- Going down into a node only visits its children. -/
theorem descend_congr {node : Node}
    (alike : ∀ child ∈ node.children, walker.VisitsAlike edited other child) :
    walker.descend edited node = walker.descend other node := by
  cases node with
  | declaration _ _ _ value | returning value =>
    rw [descend, descend, descendOption_congr alike]
  | assignment _ _ value | expression value | parenthesized value | unary _ value
  | property value _ | crement _ _ value =>
    rw [descend, descend, alike value List.mem_cons_self]
  | propertyAssignment target _ value =>
    simp only [Node.children, List.forall_mem_cons] at alike
    rw [descend, descend, alike.1, alike.2.1]
  | function _ _ _ body | binary _ body =>
    rw [Node.children] at alike
    rw [descend, descend, descendList_congr alike]
  | conditional condition body elseIfs elseBody =>
    simp only [Node.children, List.cons_append, List.forall_mem_cons,
      List.forall_mem_append] at alike
    obtain ⟨guard, ⟨guarded, branches⟩, last⟩ := alike
    rw [descend, descend, guard, descendList_congr guarded, descendBranches_congr branches,
      descendOptionList_congr last]
  | loop init check increment body =>
    simp only [Node.children, List.forall_mem_cons] at alike
    obtain ⟨first, second, third, repeated⟩ := alike
    rw [descend, descend, first, second, third, descendList_congr repeated]
  | call callee args =>
    rw [Node.children, List.forall_mem_cons] at alike
    rw [descend, descend, alike.1, descendList_congr alike.2]
  | _ => rfl

end Congruence

/-- As long as the edits stay within two limits, these give the same visit. The induction is on the
    edits and, inside an edit, on the node: what is kept is visited with the same limits, and what
    is put in place with one edit less. -/
theorem EditsWithin.visitsAlike {edits : Nat} {node : Node} (within : walker.EditsWithin edits node) :
    ∀ {limit further}, edits ≤ limit → edits ≤ further →
      walker.VisitsAlike (walker.descendEdited limit) (walker.descendEdited further) node := by
  induction within with
  | @visit edits node kept left edited keptAlike editedAlike =>
    intro limit further enough enough'
    funext state
    have stays (keeps : ∀ visitor, walker.visitor? node.kind = some visitor →
        ∃ state, (visitor node state).1 = .keep) :
        walker.descend (walker.descendEdited limit) node =
          walker.descend (walker.descendEdited further) node :=
      descend_congr fun child member => keptAlike child member keeps enough enough'
    cases known : walker.visitor? node.kind with
    | none =>
      have unasked : ∀ visitor, walker.visitor? node.kind ≠ some visitor := by simp [known]
      rw [stays fun visitor found => absurd found (unasked visitor)]
      simp only [judge, known]
    | some visitor =>
      have only {other : Visitor σ} (found : walker.visitor? node.kind = some other) :
          visitor = other := Option.some.inj (known.symm.trans found)
      have verdict (edited : Node → StateM σ Node) (kept : StateM σ Node) :
          walker.judge edited node kept state =
            (visitor node state).1.carryOut edited kept (walker.shown state node) :=
        judge_eq_of_verdict (fun other found => by rw [only found])
          (fun none => by simp [known] at none) edited kept
      rw [verdict, verdict]
      cases decided : (visitor node state).1 with
      | keep =>
        rw [stays fun other found => ⟨state, by rw [← only found, decided]⟩]
        rfl
      | replace => rfl
      | edit changed =>
        have positive := left visitor state changed known decided
        obtain ⟨limit, rfl⟩ := Nat.exists_eq_add_one.mpr (Nat.lt_of_lt_of_le positive enough)
        obtain ⟨further, rfl⟩ := Nat.exists_eq_add_one.mpr (Nat.lt_of_lt_of_le positive enough')
        have inside : walker.descend (walker.descendEdited limit) changed =
            walker.descend (walker.descendEdited further) changed :=
          descend_congr fun child member =>
            editedAlike visitor state changed known decided child member (by omega) (by omega)
        rw [Verdict.carryOut, Verdict.carryOut, descendEdited, descendEdited, inside]

/-- Where no more edits are made inside one another than the limit lets visitors make, a walk is
    the same as with any other limit that lets them. -/
theorem walk_eq_of_editsWithin {nodes : List Node} {edits : Nat}
    (within : ∀ node ∈ nodes, walker.EditsWithin edits node) (idle : edits ≤ maxEdits)
    {limit : Nat} (enough : edits ≤ limit) :
    walker.walk nodes = walker.descendList (walker.descendEdited limit) nodes :=
  descendList_congr fun node member => (within node member).visitsAlike idle enough

/-- Visitors that keep and exchange nodes edit none. -/
theorem Exchanges.editsWithin {exchange : Node → Option Node}
    (exchanges : walker.Exchanges exchange) (node : Node) : walker.EditsWithin 0 node := by
  have edits {node : Node} {visitor : Visitor σ} {state : σ} {changed : Node}
      (known : walker.visitor? node.kind = some visitor) :
      (visitor node state).1 ≠ .edit changed := by
    rw [exchanges.verdict node visitor state known]
    cases exchange node <;> exact Verdict.noConfusion
  induction node using Node.childrenInduction with
  | step node inductionHypothesis =>
    exact .visit (fun child member _ => inductionHypothesis child member)
      (fun _ _ _ known decided => absurd decided (edits known))
      (fun _ _ _ known decided => absurd decided (edits known))

/-- Visitors that fill nodes edit none of what they have put into them. -/
theorem Fills.editsWithin {fill : Node → Option Node} (fills : walker.Fills fill) (node : Node) :
    walker.EditsWithin 1 node := by
  have filled {node : Node} {visitor : Visitor σ} {state : σ} {changed : Node}
      (known : walker.visitor? node.kind = some visitor)
      (decided : (visitor node state).1 = .edit changed) : fill node = some changed := by
    rw [fills.verdict node visitor state known] at decided
    cases found : fill node with
    | none => simp [found] at decided
    | some other => simpa [found] using decided
  have settled {child : Node} (childless : child.children = [])
      (unasked : walker.visitor? child.kind = none) : walker.EditsWithin 0 child :=
    .visit (by simp [childless]) (by simp [unasked]) (by simp [unasked])
  induction node using Node.childrenInduction with
  | step node inductionHypothesis =>
    refine .visit (fun child member _ => inductionHypothesis child member)
      (fun _ _ _ _ _ => Nat.one_pos) fun visitor state changed known decided child member => ?_
    obtain ⟨childless, unasked⟩ := fills.settled (filled known decided) child member
    exact settled childless unasked

/-- No limit makes a difference to visitors that only exchange nodes. -/
theorem Exchanges.walk_eq_of_limit {exchange : Node → Option Node}
    (exchanges : walker.Exchanges exchange) (nodes : List Node) (limit : Nat) :
    walker.walk nodes = walker.descendList (walker.descendEdited limit) nodes :=
  walk_eq_of_editsWithin (fun node _ => exchanges.editsWithin node) (Nat.zero_le _)
    (Nat.zero_le limit)

/-- No limit but the one that lets nobody edit makes a difference to visitors that fill nodes. -/
theorem Fills.walk_eq_of_limit {fill : Node → Option Node} (fills : walker.Fills fill)
    (nodes : List Node) {limit : Nat} (positive : 0 < limit) :
    walker.walk nodes = walker.descendList (walker.descendEdited limit) nodes :=
  walk_eq_of_editsWithin (fun node _ => fills.editsWithin node) (by decide) positive

end ShaderSource.Walker
