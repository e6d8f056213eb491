import Mathlib.Data.List.Nodup
import ShaderSource.Grammar.Production
import ShaderSource.Proofs.Grammar.Repetition

/-!
# Which rule is taken

A reader tries the rules of the contexts being read in the order of its grammar.
So a node that it finds was built by one of them, it finds none if all of them
reject what lies before it, and it finds the node of a rule that takes the pieces
before it if all that may be tried earlier reject them.

The grammars considered here have the rules of the grammar of shaders, in any
order in which the rules of three clauses come before the expression that such a
clause begins with.
-/

namespace ShaderSource

namespace Production

/-- The rules that are tried in some contexts. -/
def eligible (flags : Flags) : List Production := all.filter (·.flags.intersects flags)

/-- The rules of clauses that may begin with what is a clause by itself, an expression. -/
def begunByExpression : List Production := [declaration, assignment, propertyAssignment]

/-- Whether a rule may be tried before another one. -/
def mayPrecede (other production : Production) : Bool :=
  other != production && !(other == expressionStatement && begunByExpression.contains production)

/-- No two productions have one name. -/
theorem nodup_names : (all.map name).Nodup := by decide

/-- Every production is among them. -/
theorem mem_all (production : Production) : production ∈ all := by cases production <;> decide

/-- A rule tells its production. -/
theorem rule_injective : Function.Injective rule := by
  intro production other same
  exact List.inj_on_of_nodup_map nodup_names (mem_all production) (mem_all other)
    (congrArg Rule.name same)

end Production

/-- Of two different items in order, the second does not stand before the first. -/
theorem not_mem_before {α : Type} {first second : α} {before after : List α}
    (distinct : (before ++ first :: after).Nodup)
    (order : [first, second].Sublist (before ++ first :: after)) : second ∉ before := by
  intro member
  have apart : first ∉ before := fun earlier =>
    List.disjoint_of_nodup_append distinct earlier List.mem_cons_self
  obtain ⟨front, back, split, inFront, inBack⟩ := List.sublist_append_iff.mp order
  cases front with
  | nil =>
    rw [List.nil_append] at split
    subst split
    have later : second ∈ after := List.singleton_sublist.mp (List.cons_sublist_cons.mp inBack)
    exact List.disjoint_of_nodup_append distinct member (List.mem_cons_of_mem first later)
  | cons item front =>
    obtain ⟨rfl, _⟩ := List.cons.inj split
    exact apart (inFront.subset List.mem_cons_self)

namespace Grammar

open Production

/-- The grammar has the rules of the grammar of shaders, and a clause is not taken for an
    expression that it begins with. -/
class Arranged (grammar : Grammar) : Prop where
  rules : grammar.rules.Perm glsl.rules
  before : ∀ production ∈ begunByExpression,
    [production.rule, expressionStatement.rule].Sublist grammar.rules

/-- The grammar of shaders has its own rules in a fitting order. -/
instance : glsl.Arranged where
  rules := .refl _
  before := by
    have order : ∀ production ∈ begunByExpression,
        [production, expressionStatement].Sublist all := by decide
    exact fun production member => (order production member).map rule

/-- What a rule finds around it when some levels are left below it. -/
def setting (grammar : Grammar) (levels : Nat) (flags : Flags) (subject : Option Node) : Setting :=
  ⟨flags, subject, maxDepth - levels, grammar.reader levels⟩

/-- A grammar finds the first of its eligible rules that fits. -/
theorem reader_succ (grammar : Grammar) (levels : Nat) (flags : Flags) (subject : Option Node)
    (place : Place) :
    grammar.reader (levels + 1) flags subject place =
      firstFit (grammar.setting levels flags subject) place
        (grammar.rules.filter (·.flags.intersects flags)) := rfl

section FirstFit

variable {setting : Setting} {place : Place} {rules : List Rule}

/-- What is found was built by one of the rules. -/
theorem exists_of_firstFit {result : Node × Place}
    (found : firstFit setting place rules = .ok (some result)) :
    ∃ rule ∈ rules, rule.build setting place = .ok result := by
  induction rules with
  | nil => simp [firstFit] at found
  | cons rule rules inductionHypothesis =>
    rw [firstFit] at found
    split at found
    case h_1 built success =>
      obtain rfl := Option.some.inj (Except.ok.inj found)
      exact ⟨rule, by simp, success⟩
    case h_2 =>
      obtain ⟨other, member, success⟩ := inductionHypothesis found
      exact ⟨other, List.mem_cons_of_mem rule member, success⟩
    case h_3 => simp at found

/-- Nothing is found exactly if no rule fits. -/
theorem firstFit_eq_none_iff :
    firstFit setting place rules = .ok none ↔
      ∀ rule ∈ rules, rule.build setting place = .error .mismatch := by
  induction rules with
  | nil => simp [firstFit]
  | cons rule rules inductionHypothesis =>
    rw [firstFit, List.forall_mem_cons]
    split
    case h_1 success => simp [success]
    case h_2 mismatch => simp [mismatch, inductionHypothesis]
    case h_3 fatal => simp [fatal]

/-- The first rule that fits is taken if those before it do not fit. -/
theorem firstFit_append {before after : List Rule} {rule : Rule} {result : Node × Place}
    (rejected : ∀ other ∈ before, other.build setting place = .error .mismatch)
    (fits : rule.build setting place = .ok result) :
    firstFit setting place (before ++ rule :: after) = .ok (some result) := by
  induction before with
  | nil => simp [firstFit, fits]
  | cons other before inductionHypothesis =>
    rw [List.forall_mem_cons] at rejected
    simp [firstFit, rejected.1, inductionHypothesis rejected.2]

end FirstFit

section Arranged

variable {grammar : Grammar} [grammar.Arranged]

/-- The rules that are tried are those of the eligible productions. -/
theorem mem_eligible_iff {flags : Flags} {rule : Rule} :
    rule ∈ grammar.rules.filter (·.flags.intersects flags) ↔
      ∃ production ∈ Production.eligible flags, production.rule = rule := by
  have same : grammar.rules.Perm glsl.rules := Arranged.rules
  rw [List.mem_filter, same.mem_iff, glsl, List.mem_map]
  constructor
  · rintro ⟨⟨production, member, rfl⟩, fits⟩
    exact ⟨production, List.mem_filter.mpr ⟨member, fits⟩, rfl⟩
  · rintro ⟨production, member, rfl⟩
    obtain ⟨member, fits⟩ := List.mem_filter.mp member
    exact ⟨⟨production, member, rfl⟩, fits⟩

/-- Each eligible rule stands behind rules of which each may precede it. -/
theorem exists_before (grammar : Grammar) [grammar.Arranged] {flags : Flags}
    {production : Production}
    (eligible : production ∈ Production.eligible flags) :
    ∃ before after, grammar.rules.filter (·.flags.intersects flags) =
        before ++ production.rule :: after ∧
      ∀ rule ∈ before, ∃ other ∈ Production.eligible flags,
        other.mayPrecede production = true ∧ other.rule = rule := by
  have same : grammar.rules.Perm glsl.rules := Arranged.rules
  have distinct : (grammar.rules.filter (·.flags.intersects flags)).Nodup :=
    (same.nodup_iff.mpr ((List.Nodup.of_map _ nodup_names).map rule_injective)).filter _
  have member : production.rule ∈ grammar.rules.filter (·.flags.intersects flags) :=
    mem_eligible_iff.mpr ⟨production, eligible, rfl⟩
  obtain ⟨before, after, split⟩ := List.append_of_mem member
  refine ⟨before, after, split, fun rule earlier => ?_⟩
  obtain ⟨other, known, rfl⟩ : ∃ other ∈ Production.eligible flags, other.rule = rule :=
    mem_eligible_iff.mp (split ▸ List.mem_append_left _ earlier)
  rw [split] at distinct
  refine ⟨other, known, ?_, rfl⟩
  rw [mayPrecede, Bool.and_eq_true, bne_iff_ne, Bool.not_eq_true', Bool.and_eq_false_iff,
    beq_eq_false_iff_ne]
  constructor
  · rintro rfl
    exact List.disjoint_of_nodup_append distinct earlier List.mem_cons_self
  · by_cases last : other = expressionStatement
    · right
      subst last
      rw [Bool.eq_false_iff, ne_eq, List.contains_iff_mem]
      intro begun
      have order : [production.rule, expressionStatement.rule].Sublist grammar.rules :=
        Arranged.before production begun
      have fits : ∀ rule ∈ [production.rule, expressionStatement.rule],
          rule.flags.intersects flags = true := by
        simp only [List.forall_mem_cons]
        exact ⟨(List.mem_filter.mp eligible).2, (List.mem_filter.mp known).2, by simp⟩
      have kept := order.filter (·.flags.intersects flags)
      rw [List.filter_eq_self.mpr fits, split] at kept
      exact not_mem_before distinct kept earlier
    · exact .inl last

variable {levels : Nat} {flags : Flags} {subject : Option Node}

/-- A node that a reader finds was built by an eligible rule. -/
theorem exists_of_reader {place after : Place} {node : Node}
    (found : grammar.reader (levels + 1) flags subject place = .ok (some (node, after))) :
    ∃ production ∈ Production.eligible flags,
      production.build (grammar.setting levels flags subject) place = .ok (node, after) := by
  rw [reader_succ] at found
  obtain ⟨rule, member, success⟩ := exists_of_firstFit found
  obtain ⟨production, eligible, rfl⟩ := mem_eligible_iff.mp member
  exact ⟨production, eligible, success⟩

/-- A reader finds nothing exactly if no eligible rule fits. -/
theorem reader_eq_none_iff {place : Place} :
    grammar.reader (levels + 1) flags subject place = .ok none ↔
      ∀ production ∈ Production.eligible flags,
        production.build (grammar.setting levels flags subject) place = .error .mismatch := by
  rw [reader_succ, firstFit_eq_none_iff]
  constructor
  · intro each production eligible
    exact each production.rule (mem_eligible_iff.mpr ⟨production, eligible, rfl⟩)
  · intro each rule member
    obtain ⟨production, eligible, rfl⟩ := mem_eligible_iff.mp member
    exact each production eligible

/-- What every eligible rule reads, a reader reads. -/
theorem reader_reads {condition : Node → List Piece → Prop}
    (each : ∀ production ∈ Production.eligible flags,
      production.build.Reads (grammar.setting levels flags subject) condition) :
    (grammar.reader (levels + 1)).Reads flags subject condition := by
  intro place node after lexical found
  obtain ⟨production, eligible, success⟩ := exists_of_reader found
  exact each production eligible place node after lexical success

/-- A reader takes what an eligible rule takes and those that may precede it reject. -/
theorem reader_takes (production : Production) {taken later : List Piece} {node : Node}
    (eligible : production ∈ Production.eligible flags)
    (rejected : ∀ other ∈ Production.eligible flags, other.mayPrecede production = true →
      other.build.Rejects (grammar.setting levels flags subject) (taken ++ later))
    (takes : production.build.Takes (grammar.setting levels flags subject) taken later
      fun read => read = node) :
    (grammar.reader (levels + 1)).Takes flags subject taken later node := by
  intro place split
  obtain ⟨read, final, success, rfl, behind⟩ := takes place split
  obtain ⟨before, after, order, preceding⟩ := exists_before grammar eligible
  refine ⟨final, ?_, behind⟩
  rw [reader_succ, order]
  refine firstFit_append (fun rule earlier => ?_) success
  obtain ⟨other, known, precedes, rfl⟩ := preceding rule earlier
  exact rejected other known precedes place split

/-- A reader refuses what all eligible rules reject. -/
theorem reader_refuses {pieces : List Piece}
    (rejected : ∀ production ∈ Production.eligible flags,
      production.build.Rejects (grammar.setting levels flags subject) pieces) :
    (grammar.reader (levels + 1)).Refuses flags subject pieces := by
  intro place split
  rw [reader_eq_none_iff]
  exact fun production eligible => rejected production eligible place split

end Arranged

end Grammar

namespace Production

/-- The rules of each context. -/
theorem eligible_root : eligible .root =
    [precision, declaration, function, assignment, propertyAssignment, conditional, loop,
      returning, breaking, expressionStatement, emptyStatement] := by
  decide

/-- The productions of statements, in their order. -/
theorem eligible_statement : eligible .statement =
    [declaration, assignment, propertyAssignment, conditional, loop, returning, breaking,
      expressionStatement, emptyStatement] := by
  decide

/-- The productions of the clauses of a loop, in their order. -/
theorem eligible_simple : eligible .simple =
    [declaration, assignment, propertyAssignment, expressionStatement, emptyStatement] := by
  decide

/-- A value is an expression. -/
theorem eligible_value : eligible .value = [expression] := by decide

/-- An operand is read by the production of expressions too. -/
theorem eligible_operand : eligible .operand = [expression] := by decide

/-- The productions of what a chain of links begins with, in their order. -/
theorem eligible_single : eligible .single =
    [float, int, reference, parenthesized, unary, leadingCrement] := by
  decide

/-- The productions of links, in their order. -/
theorem eligible_trailing : eligible .trailing = [call, property, trailingCrement] := by decide

end Production

end ShaderSource
