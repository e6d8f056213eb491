import ShaderSource.Proofs.Grammar.Trailing
import ShaderSource.Proofs.Grammar.Words

/-!
# What is read as an expression

Every node that a reader finds accounts for the pieces that it takes: they are
the pieces of the node, the node has the shape of its context, and it is nested
within the limit. Here this is carried from the readers of fewer levels to the
values, operands and chains read from them.

A sign or a leading step is read as a single value, behind which a call or a
property could be tried once more. Nothing fits there, since the operand inside
was read as far as anything did.
-/

namespace ShaderSource

/-- A node accounts for the pieces that were taken as it. -/
structure Accounts (category : Category) (limit level : Nat) (node : Node)
    (taken : List Piece) : Prop where
  pieces : taken = node.pieces category.closed
  shaped : Shaped category node
  within : node.Within limit level

/-- All that the readers with some levels find accounts for what they take. On the top level
    a reader has two levels more than the limit, and one less on each level below. -/
structure Sound (grammar : Grammar) (limit levels : Nat) : Prop where
  reads : ∀ category level, category ≠ .primary → levels + level = limit + 2 →
    (grammar.reader levels).Reads category.flags none (Accounts category limit level)
  /-- Behind an operand nothing more fits, however many levels are left. -/
  settled : levels ≤ limit + 2 → ∀ place node after, place.Lexical →
    grammar.reader levels .operand none place = .ok (some (node, after)) →
      ∀ more, levels ≤ more → grammar.reader more .trailing (some node) after = .ok none

variable {grammar : Grammar}

/-- An operand that can be stepped is a value that something can be written behind. -/
theorem Shaped.primary_of_target {node : Node} (operand : Shaped .operand node)
    (target : node.isCrementTarget = true) : Shaped .primary node := by
  cases operand with
  | ofPrimary primary => exact primary
  | unary => exact Bool.noConfusion target
  | leadingCrement => exact Bool.noConfusion target

/-- The commas stand between the items of a list. -/
theorem Piece.listed_concat (items : List (List Piece)) (item : List Piece) :
    listed (items ++ [item]) =
      listed items ++ (if items = [] then [] else [comma]) ++ item := by
  cases items with
  | nil => simp [listed]
  | cons first others => simp [listed, List.flatMap_append]

namespace Production

open Attempt Grammar

section Separated

variable {α : Type} {setting : Setting}

/-- The items of a list are read with the commas between them, up to its end. -/
theorem reads_separated {part : Nat → List α → Attempt (List α)} {pattern : Token → Bool}
    {pieces : α → List Piece} {holds : α → Prop}
    (each : ∀ rounds items, (part rounds items).Reads setting fun result consumed =>
      ∃ item, result = items ++ [item] ∧ holds item ∧
        consumed = (if 0 < rounds then [Piece.comma] else []) ++ pieces item) :
    (repeatUntil pattern part []).Reads setting fun items consumed =>
      consumed = Piece.listed (items.map pieces) ∧ ∀ item ∈ items, holds item := by
  let Listed (rounds : Nat) (items : List α) (taken : List Piece) : Prop :=
    rounds = items.length ∧ taken = Piece.listed (items.map pieces) ∧ ∀ item ∈ items, holds item
  have start : Listed 0 [] [] := ⟨rfl, rfl, by simp⟩
  refine (reads_repeatWhen (fun rounds items taken listed => ?_) start).imp
    fun items consumed met => ?_
  · apply (each rounds items).imp
    intro result consumed met
    obtain ⟨item, rfl, held, rfl⟩ := met
    obtain ⟨rfl, rfl, all⟩ := listed
    refine ⟨by simp, ?_, ?_⟩
    · rw [List.map_append, List.map_singleton, Piece.listed_concat]
      cases items <;> simp
    · intro other member
      rcases List.mem_append.mp member with member | member
      · exact all other member
      · exact List.mem_singleton.mp member ▸ held
  · obtain ⟨rounds, _, split, all⟩ := met
    exact ⟨split, all⟩

end Separated

section Values

variable {limit levels level : Nat} {flags : Flags} {subject : Option Node}

/-- Two levels further in than a value stands what is inside it. -/
theorem inner_reads (sound : Sound grammar limit levels) (deep : levels + level = limit)
    (category : Category) (other : category ≠ .primary) :
    (Attempt.node category.flags).Reads (grammar.setting levels flags subject)
      (Accounts category limit (level + 2)) :=
  reads_node (sound.reads category (level + 2) other (by omega))

/-- A float number that is read accounts for its piece. -/
theorem reads_float (deep : levels + level = limit) :
    readFloat.Reads (grammar.setting levels flags subject) (Accounts .primary limit level) := by
  refine reads_token.bind fun shown taken met => Reads.pure ?_
  obtain ⟨⟨kind, text, span⟩, fits, lexical, rfl⟩ := shown, met
  obtain rfl : kind = .float := by simpa [Token.hasKind] using fits
  exact ⟨rfl, .float lexical, by simp only [Node.Within]; omega⟩

/-- An integer that is read accounts for its piece. -/
theorem reads_int (deep : levels + level = limit) :
    readInt.Reads (grammar.setting levels flags subject) (Accounts .primary limit level) := by
  refine reads_token.bind fun shown taken met => Reads.pure ?_
  obtain ⟨⟨kind, text, span⟩, fits, lexical, rfl⟩ := shown, met
  obtain rfl : kind = .integer := by simpa [Token.hasKind] using fits
  exact ⟨rfl, .int lexical, by simp only [Node.Within]; omega⟩

/-- A variable that is read accounts for its name. -/
theorem reads_reference (deep : levels + level = limit) :
    readReference.Reads (grammar.setting levels flags subject) (Accounts .primary limit level) := by
  refine reads_nameText.bind fun name taken met => Reads.pure ?_
  obtain ⟨named, rfl⟩ := met
  exact ⟨rfl, .reference named, by simp only [Node.Within]; omega⟩

/-- A parenthesized expression that is read accounts for its pieces. -/
theorem reads_parenthesized (sound : Sound grammar limit levels) (deep : levels + level = limit) :
    readParenthesized.Reads (grammar.setting levels flags subject) (Accounts .primary limit level) := by
  refine (reads_word (.bracket "(") (by decide)).bind fun _ opening opened => ?_
  apply (inner_reads sound deep .expression nofun).bind
  intro value taken inner
  refine (reads_word (.bracket ")") (by decide)).bind fun _ closing closed => Reads.pure ?_
  subst opened closed
  obtain ⟨rfl, shaped, within⟩ := inner
  exact ⟨by simp [Node.pieces, Category.closed], .parenthesized shaped,
    by simp only [Node.Within]; exact ⟨by omega, within⟩⟩

/-- A unary expression that is read accounts for the operator and the operand. -/
theorem reads_unary (sound : Sound grammar limit levels) (deep : levels + level = limit) :
    readUnary.Reads (grammar.setting levels flags subject) (Accounts .operand limit level) := by
  rw [readUnary, ← bind_assoc]
  apply reads_unaryOp.bind
  intro op taken signed
  refine (inner_reads sound deep .operand nofun).bind
    fun value taken' inner => Reads.pure ?_
  subst signed
  obtain ⟨rfl, shaped, within⟩ := inner
  exact ⟨by simp [Node.pieces, Category.closed], .unary shaped,
    by simp only [Node.Within]; exact ⟨by omega, within⟩⟩

/-- A step in front of its operand accounts for both, and the operand can be stepped. -/
theorem reads_leadingCrement (sound : Sound grammar limit levels) (deep : levels + level = limit) :
    readLeadingCrement.Reads (grammar.setting levels flags subject) (Accounts .operand limit level) := by
  apply reads_crementOp.bind
  intro op taken stepped
  apply (inner_reads sound deep .operand nofun).bind
  intro value taken' inner
  refine reads_validate.bind fun _ taken'' met => Reads.pure ?_
  subst stepped
  obtain ⟨target, rfl⟩ := met
  obtain ⟨rfl, shaped, within⟩ := inner
  exact ⟨by simp [Node.pieces, Category.closed],
    .leadingCrement (shaped.primary_of_target target) target,
    by simp only [Node.Within]; exact ⟨by omega, by simpa using within⟩⟩

/-- One value that is given to a call. -/
theorem reads_readArgument (sound : Sound grammar limit levels) (deep : levels + level = limit)
    (rounds : Nat) (args : List Node) :
    (readArgument rounds args).Reads (grammar.setting levels flags subject) fun result consumed =>
      ∃ arg, result = args ++ [arg] ∧
        (Shaped .expression arg ∧ arg.Within limit (level + 2)) ∧
        consumed = (if 0 < rounds then [Piece.comma] else []) ++ arg.pieces true := by
  apply reads_separator.bind
  intro _ opening separated
  refine (inner_reads sound deep .expression nofun).bind fun arg taken inner => Reads.pure ?_
  obtain ⟨rfl, shaped, within⟩ := inner
  exact ⟨arg, rfl, ⟨shaped, within⟩, by rw [separated, List.append_nil]; rfl⟩

variable {value : Node} {before : List Piece}

/-- A call that is read accounts for what stood before it and its arguments behind. -/
theorem reads_call (sound : Sound grammar limit levels) (deep : levels + level = limit)
    (known : Accounts .primary limit level value before) :
    readCall.Reads (grammar.setting levels flags (some value)) fun longer consumed =>
      consumed ≠ [] ∧ Accounts .primary limit level longer (before ++ consumed) := by
  apply reads_subject.bind
  intro callee taken given
  refine (reads_word (.bracket "(") (by decide)).bind fun _ opening opened => ?_
  apply (reads_separated (reads_readArgument sound deep)).bind
  intro args taken' listed
  refine (reads_word (.bracket ")") (by decide)).bind fun _ closing closed => Reads.pure ?_
  obtain ⟨same, rfl⟩ := given
  obtain rfl : value = callee := Option.some.inj same
  subst opened closed
  obtain ⟨rfl, all⟩ := listed
  obtain ⟨rfl, shaped, within⟩ := known
  refine ⟨by simp, by simp [Node.pieces, Category.closed, Node.piecesList_eq_map], ?_, ?_⟩
  · exact .call shaped fun arg member => (all arg member).1
  · simp only [Node.Within, Node.listWithin_iff]
    exact ⟨by omega, within, fun arg member => (all arg member).2⟩

/-- A property that is read accounts for what stood before it and its name behind. -/
theorem reads_property (deep : levels + level = limit)
    (known : Accounts .primary limit level value before) :
    readProperty.Reads (grammar.setting levels flags (some value)) fun longer consumed =>
      consumed ≠ [] ∧ Accounts .primary limit level longer (before ++ consumed) := by
  apply reads_subject.bind
  intro owner taken given
  apply (reads_word (.marker ".") (by decide)).bind
  intro _ point pointed
  refine reads_token.bind fun shown taken' met => Reads.pure ?_
  obtain ⟨same, rfl⟩ := given
  obtain rfl : value = owner := Option.some.inj same
  subst pointed
  obtain ⟨⟨kind, text, span⟩, fits, lexical, rfl⟩ := shown, met
  obtain rfl : kind = .identifier := by simpa [Token.hasKind] using fits
  obtain ⟨rfl, shaped, within⟩ := known
  refine ⟨by simp, ?_, .property shaped lexical, ?_⟩
  · simp [Node.pieces, Category.closed, Token.piece, Piece.word]
  · simp only [Node.Within]
    exact ⟨by omega, within⟩

/-- A step behind its operand accounts for both. -/
theorem reads_trailingCrement (deep : levels + level = limit)
    (known : Accounts .primary limit level value before) :
    readTrailingCrement.Reads (grammar.setting levels flags (some value)) fun longer consumed =>
      consumed ≠ [] ∧ Accounts .primary limit level longer (before ++ consumed) := by
  apply reads_subject.bind
  intro stepped taken given
  apply reads_crementOp.bind
  intro op taken' shown
  refine reads_validate.bind fun _ taken'' met => Reads.pure ?_
  obtain ⟨same, rfl⟩ := given
  obtain rfl : value = stepped := Option.some.inj same
  subst shown
  obtain ⟨target, rfl⟩ := met
  obtain ⟨rfl, shaped, within⟩ := known
  refine ⟨by simp, by simp [Node.pieces, Category.closed], .trailingCrement shaped target, ?_⟩
  simp only [Node.Within, if_true]
  exact ⟨by omega, within⟩

variable [grammar.Arranged]

/-- What is found behind a value grows it, and it is still a value of its kind. -/
theorem trailing_reads (sound : Sound grammar limit levels) (deep : levels + level = limit)
    (known : Accounts .primary limit level value before) :
    (grammar.reader (levels + 1)).Reads .trailing (some value) fun longer consumed =>
      consumed ≠ [] ∧ Accounts .primary limit level longer (before ++ consumed) := by
  apply reader_reads
  intro production eligible
  rw [eligible_trailing] at eligible
  simp only [List.mem_cons, List.not_mem_nil, or_false] at eligible
  rcases eligible with rfl | rfl | rfl
  · exact reads_call sound deep known
  · exact reads_property deep known
  · exact reads_trailingCrement deep known

/-- Behind a sign and its operand nothing fits, since nothing fits behind the operand. -/
theorem unary_settled (sound : Sound grammar limit levels) (deep : levels + level = limit)
    {place after : Place} {node : Node} (lexical : place.Lexical)
    (success : readUnary (grammar.setting levels flags subject) place = .ok (node, after)) :
    grammar.reader (levels + 1) .trailing (some node) after = .ok none := by
  rw [readUnary, ← bind_assoc] at success
  obtain ⟨op, middle, signed, success⟩ := bind_eq_ok.mp success
  obtain ⟨value, final, found, success⟩ := bind_eq_ok.mp success
  obtain ⟨rfl, rfl⟩ := Prod.mk.inj (Except.ok.inj success)
  obtain ⟨_, split, _⟩ := reads_unaryOp place op middle lexical signed
  have halted := sound.settled (by omega) middle value final (lexical.of_append split)
    (node_eq_ok.mp found)
  exact trailing_refused (halted (levels + 1) (Nat.le_succ levels)) rfl

/-- Behind a leading step and its operand nothing fits, since nothing fits behind the
    operand. -/
theorem leadingCrement_settled (sound : Sound grammar limit levels) (deep : levels + level = limit)
    {place after : Place} {node : Node} (lexical : place.Lexical)
    (success : readLeadingCrement (grammar.setting levels flags subject) place = .ok (node, after)) :
    grammar.reader (levels + 1) .trailing (some node) after = .ok none := by
  obtain ⟨op, middle, stepped, success⟩ := bind_eq_ok.mp success
  obtain ⟨value, final, found, success⟩ := bind_eq_ok.mp success
  obtain ⟨_, last, valid, success⟩ := bind_eq_ok.mp success
  obtain ⟨rfl, rfl⟩ := Prod.mk.inj (Except.ok.inj success)
  obtain ⟨_, split, _⟩ := reads_crementOp place op middle lexical stepped
  have halted := sound.settled (by omega) middle value final (lexical.of_append split)
    (node_eq_ok.mp found)
  obtain rfl : final = last := by
    unfold validate at valid
    split at valid
    case isTrue => exact (Prod.mk.inj (Except.ok.inj valid)).2
    case isFalse => simp at valid
  exact trailing_refused (halted (levels + 1) (Nat.le_succ levels)) rfl

/-- A single value can be grown, or it is a whole operand behind which nothing fits. -/
theorem single_found (sound : Sound grammar limit levels) (deep : levels + level = limit)
    {place after : Place} {node : Node} (lexical : place.Lexical)
    (found : grammar.reader (levels + 1) .single none place = .ok (some (node, after))) :
    ∃ taken, place.pieces = taken ++ after.pieces ∧
      (Accounts .primary limit level node taken ∨
        Accounts .operand limit level node taken ∧
          grammar.reader (levels + 1) .trailing (some node) after = .ok none) := by
  obtain ⟨production, eligible, success⟩ := exists_of_reader found
  rw [eligible_single] at eligible
  simp only [List.mem_cons, List.not_mem_nil, or_false] at eligible
  rcases eligible with rfl | rfl | rfl | rfl | rfl | rfl
  · obtain ⟨taken, split, known⟩ := reads_float deep place node after lexical success
    exact ⟨taken, split, .inl known⟩
  · obtain ⟨taken, split, known⟩ := reads_int deep place node after lexical success
    exact ⟨taken, split, .inl known⟩
  · obtain ⟨taken, split, known⟩ := reads_reference deep place node after lexical success
    exact ⟨taken, split, .inl known⟩
  · obtain ⟨taken, split, known⟩ := reads_parenthesized sound deep place node after lexical success
    exact ⟨taken, split, .inl known⟩
  · obtain ⟨taken, split, known⟩ := reads_unary sound deep place node after lexical success
    exact ⟨taken, split, .inr ⟨known, unary_settled sound deep lexical success⟩⟩
  · obtain ⟨taken, split, known⟩ := reads_leadingCrement sound deep place node after lexical success
    exact ⟨taken, split, .inr ⟨known, leadingCrement_settled sound deep lexical success⟩⟩

/-- An operand is read as far as anything fits behind it. -/
theorem readOperand_found (sound : Sound grammar limit levels) (deep : levels + level = limit)
    {place final : Place} {result : Node} (lexical : place.Lexical)
    (success : readOperand (grammar.setting (levels + 1) flags subject) place = .ok (result, final)) :
    ∃ taken, place.pieces = taken ++ final.pieces ∧ Accounts .operand limit level result taken ∧
      grammar.reader (levels + 1) .trailing (some result) final = .ok none := by
  obtain ⟨first, middle, found, success⟩ := bind_eq_ok.mp success
  obtain ⟨before, split, known⟩ := single_found sound deep lexical (node_eq_ok.mp found)
  rcases known with known | ⟨known, halted⟩
  · obtain ⟨consumed, split', grown, halted⟩ :=
      reads_trailingChain (fun _ _ => trailing_reads sound deep) known (lexical.of_append split)
        success
    exact ⟨before ++ consumed, by rw [split, split', List.append_assoc],
      ⟨grown.pieces, .ofPrimary grown.shaped, grown.within⟩, halted⟩
  · have stopped : trailingChain first (grammar.setting (levels + 1) flags subject) middle =
        .ok (first, middle) := by
      rw [trailingChain]
      simp [trailing?, setting, halted]
    obtain ⟨rfl, rfl⟩ := Prod.mk.inj (Except.ok.inj (stopped.symm.trans success))
    exact ⟨before, split, known, halted⟩

end Values

section Chains

variable [grammar.Arranged] {limit levels level : Nat} {flags : Flags} {subject : Option Node}

/-- Without two levels left no operand is read at all. -/
theorem reads_readOperand (sound : ∀ fewer < levels, Sound grammar limit fewer)
    (deep : levels + level = limit + 1) :
    readOperand.Reads (grammar.setting levels flags subject) (Accounts .operand limit level) := by
  intro place node after lexical success
  cases levels with
  | zero =>
    obtain ⟨first, middle, found, _⟩ := bind_eq_ok.mp success
    exact absurd (node_eq_ok.mp found) nofun
  | succ levels =>
    obtain ⟨taken, split, known, _⟩ :=
      readOperand_found (sound levels (Nat.lt_succ_self levels))
        (show levels + level = limit by omega) lexical success
    exact ⟨taken, split, known⟩

/-- The operators and operands behind the first operand of a chain. -/
def linkPieces (ops : List BinaryOp) (operands : List Node) : List Piece :=
  (List.zipWith (fun op operand => op.piece :: operand) ops (Node.piecesList operands)).flatten

/-- The pieces of a further link stand behind those of the others. -/
theorem linkPieces_concat {ops : List BinaryOp} {operands : List Node}
    (paired : ops.length = operands.length) (op : BinaryOp) (operand : Node) :
    linkPieces (ops ++ [op]) (operands ++ [operand]) =
      linkPieces ops operands ++ op.piece :: operand.pieces true := by
  simp only [linkPieces, Node.piecesList_eq_map, List.map_append]
  rw [List.zipWith_append (by simpa using paired)]
  simp

/-- Each operator of a chain is read with an operand behind it. -/
theorem reads_links (sound : ∀ fewer < levels, Sound grammar limit fewer)
    (deep : levels + level = limit + 1) :
    (repeatWhile Token.isBinaryOp readLink ([], [])).Reads (grammar.setting levels flags subject)
      fun links consumed => links.1.length = links.2.length ∧
        consumed = linkPieces links.1 links.2 ∧
          ∀ operand ∈ links.2, Shaped .operand operand ∧ operand.Within limit level := by
  let Linked (_ : Nat) (links : List BinaryOp × List Node) (taken : List Piece) : Prop :=
    links.1.length = links.2.length ∧ taken = linkPieces links.1 links.2 ∧
      ∀ operand ∈ links.2, Shaped .operand operand ∧ operand.Within limit level
  have start : Linked 0 ([], []) [] := ⟨rfl, rfl, by simp⟩
  refine (reads_repeatWhen (fun rounds links taken linked => ?_) start).imp
    fun links consumed met => ?_
  · rw [readLink, ← bind_assoc]
    apply reads_binaryOp.bind
    intro op shown signed
    refine (reads_readOperand sound deep).bind fun operand consumed known => Reads.pure ?_
    subst signed
    obtain ⟨rfl, shaped, within⟩ := known
    obtain ⟨paired, rfl, all⟩ := linked
    refine ⟨by simp [paired], ?_, ?_⟩
    · simp [linkPieces_concat paired, Category.closed]
    · intro other member
      rcases List.mem_append.mp member with member | member
      · exact all other member
      · exact List.mem_singleton.mp member ▸ ⟨shaped, within⟩
  · obtain ⟨_, linked⟩ := met
    exact linked

/-- In the context of an operand no chain is read. -/
theorem readExpression_operand {setting : Setting} (single : setting.flags.contains .operand = true)
    (place : Place) : readExpression setting place = readOperand setting place := by
  rw [readExpression, bind_apply]
  cases readOperand setting place with
  | error => rfl
  | ok result => simp [bind_apply, Attempt.flags, single, pure_apply]

/-- Operands with operators between them are a chain, and a lone operand is itself. -/
theorem reads_readExpression (sound : ∀ fewer < levels, Sound grammar limit fewer)
    (deep : levels + level = limit + 1) (chained : flags.contains .operand = false) :
    readExpression.Reads (grammar.setting levels flags subject) (Accounts .expression limit level) := by
  apply (reads_readOperand sound deep).bind
  intro first taken known
  apply reads_flags.bind
  intro shown nothing met
  obtain ⟨rfl, rfl⟩ := met
  simp only [setting, chained, Bool.false_eq_true, if_false]
  apply (reads_links sound deep).bind
  intro links consumed linked
  obtain ⟨ops, operands⟩ := links
  obtain ⟨rfl, shaped, within⟩ := known
  obtain ⟨paired, rfl, all⟩ := linked
  cases ops with
  | nil =>
    obtain rfl : operands = [] := List.length_eq_zero_iff.mp paired.symm
    exact Reads.pure ⟨by simp [linkPieces, Category.closed], .ofOperand shaped, within⟩
  | cons op ops =>
    refine Reads.pure ⟨?_, ?_, ?_⟩
    · simp [Node.pieces, Node.piecesList, chainPieces, linkPieces, Category.closed]
    · refine .binary (by simp) (by simpa using paired.symm) ?_
      simpa using ⟨shaped, fun operand member => (all operand member).1⟩
    · simp only [Node.Within, Node.listWithin_iff, List.forall_mem_cons]
      exact ⟨shaped.level_le rfl within, within, fun operand member => (all operand member).2⟩

end Chains

end Production

namespace Grammar

open Attempt

variable [grammar.Arranged] {limit levels level : Nat}

/-- What is found as an operand accounts for its pieces. -/
theorem operand_reads (sound : ∀ fewer < levels, Sound grammar limit fewer)
    (deep : levels + level = limit + 2) :
    (grammar.reader levels).Reads .operand none (Accounts .operand limit level) := by
  cases levels with
  | zero => exact fun place node after _ found => absurd found nofun
  | succ levels =>
    apply reader_reads
    intro production eligible
    rw [Production.eligible_operand] at eligible
    obtain rfl := List.mem_singleton.mp eligible
    intro place node after lexical success
    have single : Flags.operand.contains .operand = true := by decide
    rw [Production.build, Production.readExpression_operand single] at success
    exact Production.reads_readOperand (fun fewer less => sound fewer (Nat.lt_succ_of_lt less))
      (by omega) place node after lexical success

/-- What is found as a value accounts for its pieces as an expression. -/
theorem expression_reads (sound : ∀ fewer < levels, Sound grammar limit fewer)
    (deep : levels + level = limit + 2) :
    (grammar.reader levels).Reads .value none (Accounts .expression limit level) := by
  cases levels with
  | zero => exact fun place node after _ found => absurd found nofun
  | succ levels =>
    apply reader_reads
    intro production eligible
    rw [Production.eligible_value] at eligible
    obtain rfl := List.mem_singleton.mp eligible
    exact Production.reads_readExpression
      (fun fewer less => sound fewer (Nat.lt_succ_of_lt less)) (by omega)
      rfl

/-- Behind an operand that was found nothing more fits, however many levels are left. -/
theorem operand_settled (sound : ∀ fewer < levels, Sound grammar limit fewer)
    (bound : levels ≤ limit + 2)
    {place after : Place} {node : Node} (lexical : place.Lexical)
    (found : grammar.reader levels .operand none place = .ok (some (node, after))) {more : Nat}
    (further : levels ≤ more) : grammar.reader more .trailing (some node) after = .ok none := by
  cases levels with
  | zero => simp [reader] at found
  | succ levels =>
    obtain ⟨production, eligible, success⟩ := exists_of_reader found
    rw [Production.eligible_operand] at eligible
    obtain rfl := List.mem_singleton.mp eligible
    have single : Flags.operand.contains .operand = true := by decide
    rw [Production.build, Production.readExpression_operand single] at success
    cases levels with
    | zero =>
      obtain ⟨first, middle, found, _⟩ := bind_eq_ok.mp success
      have none := node_eq_ok.mp found
      simp [setting, reader] at none
    | succ levels =>
      obtain ⟨_, _, _, halted⟩ := Production.readOperand_found (sound levels (by omega))
        (show levels + (limit - levels) = limit by omega) lexical success
      exact (Arranged.steady.reader_le (by omega)).of_ok halted

end Grammar

end ShaderSource
