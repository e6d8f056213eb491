import ShaderSource.Proofs.RoundTrip

/-!
# The order of the rules

Of the rules that fit, the first one is taken. Yet most of the order counts for
nothing: where two rules are tried in the same place, at most one of them fits in
a text that is accepted. The clauses of a loop are the exception. No `;` ends them,
so a declaration and an assignment begin with what is an expression by itself, and
they have to be tried first.
-/

namespace ShaderSource

/-- In every order of the rules in which declarations and assignments come before lone
    expressions, the same texts are compiled to the same programs. -/
theorem compile_of_arranged {grammar : Grammar}
    (rules : grammar.rules.Perm Grammar.glsl.rules)
    (before : ∀ production ∈
        [Production.declaration, Production.assignment, Production.propertyAssignment],
      [production.rule, Production.expressionStatement.rule].Sublist grammar.rules)
    (source : String) (nodes : List Node) :
    grammar.compile source = .ok nodes ↔ compile source = .ok nodes := by
  have arranged : grammar.Arranged := ⟨rules, before⟩
  calc grammar.compile source = .ok nodes
      ↔ ∃ tokens, (tokenize source).tokens? = .ok tokens ∧
          tokens.map Token.piece = programPieces nodes ∧ ShapedProgram nodes ∧
            NestedProgram deepestLevel nodes := Grammar.compile_eq_ok_iff
    _ ↔ compile source = .ok nodes := Grammar.compile_eq_ok_iff.symm

/-- The rules are turned round here, as far as they may be, and the clauses of a loop are still
    a declaration and an assignment. -/
theorem compile_of_arranged_reversed :
    ∃ grammar : Grammar, grammar.rules.Perm Grammar.glsl.rules ∧
      (∀ production ∈
          [Production.declaration, Production.assignment, Production.propertyAssignment],
        [production.rule, Production.expressionStatement.rule].Sublist grammar.rules) ∧
      grammar.rules.map Rule.name = ["postfix_crement", "property", "call", "value",
        "prefix_crement", "unary", "parenthesized", "variable", "int", "float",
        "empty_statement", "break", "return", "for", "if", "property_assign",
        "variable_assign", "function_decl", "variable_decl", "expression_statement",
        "precision"] ∧
      grammar.compile "for(int i=0;;i+=v.x)\x7bv.x=i;\x7d" = .ok
        [.loop (.declaration none "int" "i" (some (.int "0"))) .empty
          (.assignment "i" .addAssign (.property (.reference "v") "x"))
          [.propertyAssignment (.property (.reference "v") "x") .assign (.reference "i")]] := by
  let order : List Production := [.trailingCrement, .property, .call, .expression,
    .leadingCrement, .unary, .parenthesized, .reference, .int, .float, .emptyStatement, .breaking,
    .returning, .loop, .conditional, .propertyAssignment, .assignment, .function, .declaration,
    .expressionStatement, .precision]
  have permuted : order.Perm Production.all := by decide
  have ordered : ∀ production ∈
      [Production.declaration, Production.assignment, Production.propertyAssignment],
      [production, Production.expressionStatement].Sublist order := by decide
  have rules : (order.map Production.rule).Perm Grammar.glsl.rules := permuted.map _
  have before : ∀ production ∈
      [Production.declaration, Production.assignment, Production.propertyAssignment],
      [production.rule, Production.expressionStatement.rule].Sublist (order.map Production.rule) :=
    fun production member => (ordered production member).map _
  refine ⟨⟨order.map Production.rule⟩, rules, before, by decide, ?_⟩
  apply (compile_of_arranged rules before _ _).mpr
  decide +kernel

end ShaderSource
