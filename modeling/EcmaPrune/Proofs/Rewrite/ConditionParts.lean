import EcmaPrune.Proofs.Tree.EveryNode
import EcmaPrune.Rewrite.Condition

/-! A rewritten condition is put together from parts of the original. -/

namespace EcmaPrune.Expr

/-- Only a right operand with no effects is left out, if it decides nothing. -/
theorem logicalCondition_eq (loc : Loc) (op : Operator) (left right : Expr) :
    logicalCondition loc op left right =
      if right.pureTruth? = some (op == .logicalAnd) then left else binary loc op left right := by
  unfold logicalCondition pureTruth?
  split <;> simp

/--
A property that passes between the conditions that are rewritten and the operands in them.

It goes from an operation to the operands that rewriting takes out of it, and from operands to the
operations that rewriting builds.
-/
structure ConditionClosed (holds : Expr → Prop) : Prop where
  boolean (loc : Loc) (value : Bool) : holds (boolean loc value)
  ofInlinedEnum {loc : Loc} {value : Expr} {comment : String} :
    holds (inlinedEnum loc value comment) → holds value
  not (loc : Loc) {value : Expr} : holds value → holds (unary loc .logicalNot value false)
  ofNot {loc : Loc} {value : Expr} {fromIdentifier : Bool} :
    holds (unary loc .logicalNot value fromIdentifier) → holds value
  comma (loc : Loc) {left right : Expr} :
    holds left → holds right → holds (binary loc .comma left right)
  ofComma {loc : Loc} {left right : Expr} :
    holds (binary loc .comma left right) → holds left ∧ holds right
  logical {op : Operator} (isAndOr : op.isAndOr) (loc : Loc) {left right : Expr} :
    holds left → holds right → holds (binary loc op left right)
  ofLogical {op : Operator} (isAndOr : op.isAndOr) {loc : Loc} {left right : Expr} :
    holds (binary loc op left right) → holds left ∧ holds right
  ofConditional {loc : Loc} {test yes no : Expr} :
    holds (conditional loc test yes no) → holds test ∧ holds yes ∧ holds no
  conditional (loc : Loc) {test yes no : Expr} :
    holds test → holds yes → holds no → holds (conditional loc test yes no)
  /-- A comparison may be turned round. -/
  negated {op negated : Operator} (opposed : op.negatedEquality = some negated) {loc : Loc}
    {left right : Expr} : holds (binary loc op left right) → holds (binary loc negated left right)
  /-- A comparison with zero may be replaced by what is compared. -/
  ofZeroTest {op : Operator} {loc : Loc} {left right : Expr} (asks : asksForZero op left right) :
    holds (binary loc op left right) → holds left

namespace ConditionClosed

variable {holds : Expr → Prop} (closed : ConditionClosed holds)
include closed

/-- A shorter negation has operands of the original and at most a new negation inside. -/
theorem negate? {e negated : Expr} (found : e.negate? = some negated) (here : holds e) :
    holds negated := by
  fun_induction Expr.negate? e generalizing negated with
  -- The literal of a big integer becomes a boolean.
  | case5 loc literal =>
    obtain ⟨zero, _, rfl⟩ := Option.map_eq_some_iff.mp found
    exact closed.boolean loc zero
  | case10 loc value comment ih => exact ih found (closed.ofInlinedEnum here)
  | case11 => cases found; exact closed.ofNot here
  | case13 loc op left right other opposed => cases found; exact closed.negated opposed here
  | case14 loc op left right plain isComma ih =>
    cases found
    obtain rfl : op = .comma := by simpa using isComma
    obtain ⟨leftHolds, rightHolds⟩ := closed.ofComma here
    -- Only the last operand of a sequence is negated.
    refine closed.comma _ leftHolds ?_
    cases inner : right.negate? with
    | none => exact closed.not _ rightHolds
    | some shorter => exact ih inner rightHolds
  | case12 | case15 | case16 => cases found
  | _ =>
    -- What is left are literals, whose negation is a literal.
    cases found
    exact closed.boolean _ _

theorem negateCondition {e : Expr} (here : holds e) : holds e.negateCondition := by
  unfold Expr.negateCondition
  -- A double negation leaves its operand.
  split
  · exact closed.ofNot here
  · unfold negate
    cases found : Expr.negate? _ with
    | none => exact closed.not _ here
    | some negated => exact closed.negate? found here

theorem logicalCondition {loc : Loc} {op : Operator} (isAndOr : op.isAndOr) {left right : Expr}
    (leftHolds : holds left) (rightHolds : holds right) :
    holds (logicalCondition loc op left right) := by
  have built := closed.logical isAndOr loc leftHolds rightHolds
  -- The operation stays, or its left operand does.
  unfold Expr.logicalCondition
  split
  · split
    · exact leftHolds
    · exact built
  · exact built

theorem rewriteLast {f : Expr → Expr} (kept : ∀ e, holds e → holds (f e)) {e : Expr}
    (here : holds e) : holds (rewriteLast f e) := by
  fun_induction Expr.rewriteLast f e with
  | case1 loc left right ih =>
    obtain ⟨leftHolds, rightHolds⟩ := closed.ofComma here
    exact closed.comma loc leftHolds (ih rightHolds)
  | case2 e => exact kept e here

theorem joinOnto {op : Operator} (isAndOr : op.isAndOr) {b chain : Expr} (bHolds : holds b)
    (chainHolds : holds chain) : holds (joinOnto Expr.logicalCondition op b chain) := by
  fun_induction Expr.joinOnto Expr.logicalCondition op b chain with
  | case1 loc left right chain leftIh rightIh =>
    obtain ⟨leftHolds, rightHolds⟩ := closed.ofLogical isAndOr bHolds
    -- The left operand of the second chain joins the last operand of the first.
    exact rightIh rightHolds
      (closed.rewriteLast (fun last lastHolds => leftIh last leftHolds lastHolds) chainHolds)
  | case2 => exact closed.logicalCondition isAndOr chainHolds bHolds
  | case3 => exact closed.logicalCondition isAndOr chainHolds bHolds

theorem joinBy {op : Operator} (isAndOr : op.isAndOr) {a b : Expr} (aHolds : holds a)
    (bHolds : holds b) : holds (joinBy Expr.logicalCondition op a b) :=
  closed.rewriteLast (fun _ lastHolds => closed.joinOnto isAndOr bHolds lastHolds) aHolds

theorem chooseCondition {loc : Loc} {test yes no : Expr} (testHolds : holds test)
    (yesHolds : holds yes) (noHolds : holds no) : holds (chooseCondition loc test yes no) := by
  -- Every way of writing the choice is made of the test, its negation and the branches.
  have negatedHolds := closed.negateCondition testHolds
  unfold Expr.chooseCondition
  split
  · exact closed.joinBy rfl testHolds noHolds
  · exact closed.joinBy rfl negatedHolds noHolds
  · exact closed.joinBy rfl negatedHolds yesHolds
  · exact closed.joinBy rfl testHolds yesHolds
  · exact closed.conditional loc testHolds yesHolds noHolds

/-- What holds of an expression holds of it as a rewritten condition. -/
theorem simplifyCondition {e : Expr} (here : holds e) : holds e.simplifyCondition := by
  fun_induction Expr.simplifyCondition e with
  | case1 loc value fromIdentifier ih => exact closed.negateCondition (ih (closed.ofNot here))
  | case3 loc op left right asks isInequality ih => exact ih (closed.ofZeroTest asks here)
  | case4 loc op left right asks isEquality ih =>
    exact closed.negateCondition (ih (closed.ofZeroTest asks here))
  | case5 loc op left right asks isAndOr leftIh rightIh =>
    obtain ⟨leftHolds, rightHolds⟩ := closed.ofLogical isAndOr here
    exact closed.logicalCondition isAndOr (leftIh leftHolds) (rightIh rightHolds)
  | case7 loc test yes no testIh yesIh noIh =>
    obtain ⟨testHolds, yesHolds, noHolds⟩ := closed.ofConditional here
    exact closed.chooseCondition (testIh testHolds) (yesIh yesHolds) (noIh noHolds)
  | case2 | case6 | case8 => exact here

end ConditionClosed

/-- A property that rewriting conditions keeps, whatever the operands of what it builds are. -/
structure ConditionSafe (holds : Expr → Prop) : Prop where
  boolean (loc : Loc) (value : Bool) : holds (boolean loc value)
  not (loc : Loc) (value : Expr) : holds (unary loc .logicalNot value false)
  comma (loc : Loc) (left right : Expr) : holds (binary loc .comma left right)
  logical {op : Operator} (isAndOr : op.isAndOr) (loc : Loc) (left right : Expr) :
    holds (binary loc op left right)
  conditional (loc : Loc) (test yes no : Expr) : holds (conditional loc test yes no)
  /-- A comparison may be turned round. -/
  negated {op negated : Operator} (opposed : op.negatedEquality = some negated) {loc : Loc}
    {left right : Expr} (kept : holds (binary loc op left right)) :
    holds (binary loc negated left right)

/-- Two properties that are safe are safe together. -/
theorem ConditionSafe.and {holds also : Expr → Prop} (safe : ConditionSafe holds)
    (alsoSafe : ConditionSafe also) : ConditionSafe fun e => holds e ∧ also e where
  boolean loc value := ⟨safe.boolean loc value, alsoSafe.boolean loc value⟩
  not loc value := ⟨safe.not loc value, alsoSafe.not loc value⟩
  comma loc left right := ⟨safe.comma loc left right, alsoSafe.comma loc left right⟩
  logical isAndOr loc left right :=
    ⟨safe.logical isAndOr loc left right, alsoSafe.logical isAndOr loc left right⟩
  conditional loc test yes no :=
    ⟨safe.conditional loc test yes no, alsoSafe.conditional loc test yes no⟩
  negated opposed _ _ _ kept :=
    ⟨safe.negated opposed kept.1, alsoSafe.negated opposed kept.2⟩

/-- What is safe for every node that rewriting builds passes to and from operands as a whole. -/
theorem ConditionSafe.closed {holds : Expr → Prop} (safe : ConditionSafe holds) :
    ConditionClosed (Throughout holds) where
  boolean loc value := throughout_of_parts_eq_nil rfl (safe.boolean loc value)
  ofInlinedEnum all := all.inside (by simp [parts])
  not loc _ all := throughout_unary.mpr ⟨safe.not loc _, all⟩
  ofNot all := all.inside (by simp [parts])
  comma loc _ _ left right := throughout_binary.mpr ⟨safe.comma loc _ _, left, right⟩
  ofComma all := (throughout_binary.mp all).2
  logical isAndOr loc _ _ left right :=
    throughout_binary.mpr ⟨safe.logical isAndOr loc _ _, left, right⟩
  ofLogical _ _ _ _ all := (throughout_binary.mp all).2
  ofConditional all := (throughout_conditional.mp all).2
  conditional loc _ _ _ test yes no :=
    throughout_conditional.mpr ⟨safe.conditional loc _ _ _, test, yes, no⟩
  negated opposed _ _ _ all := by
    -- The operands of the comparison stay as they are.
    obtain ⟨here, left, right⟩ := throughout_binary.mp all
    exact throughout_binary.mpr ⟨safe.negated opposed here, left, right⟩
  ofZeroTest _ all := all.inside (by simp [parts])

/-- What is safe passes to and from operands as a property of every node as well. -/
theorem ConditionSafe.everyNode {holds : Expr → Prop} (safe : ConditionSafe holds) :
    ConditionClosed (EveryNode holds) where
  boolean loc value := everyNode_boolean.mpr (safe.boolean loc value)
  ofInlinedEnum all := all.part (by simp [parts])
  not loc _ all := everyNode_unary.mpr ⟨safe.not loc _, all⟩
  ofNot all := (everyNode_unary.mp all).2
  comma loc _ _ left right := everyNode_binary.mpr ⟨safe.comma loc _ _, left, right⟩
  ofComma all := (everyNode_binary.mp all).2
  logical isAndOr loc _ _ left right :=
    everyNode_binary.mpr ⟨safe.logical isAndOr loc _ _, left, right⟩
  ofLogical _ _ _ _ all := (everyNode_binary.mp all).2
  ofConditional all := (everyNode_conditional.mp all).2
  conditional loc _ _ _ test yes no :=
    everyNode_conditional.mpr ⟨safe.conditional loc _ _ _, test, yes, no⟩
  negated opposed _ _ _ all := by
    obtain ⟨here, left, right⟩ := everyNode_binary.mp all
    exact everyNode_binary.mpr ⟨safe.negated opposed here, left, right⟩
  ofZeroTest _ all := all.part (by simp [parts])

/-- What holds throughout an expression holds throughout it as a rewritten condition. -/
theorem throughout_simplifyCondition {holds : Expr → Prop} (safe : ConditionSafe holds) {e : Expr}
    (all : e.Throughout holds) : e.simplifyCondition.Throughout holds :=
  safe.closed.simplifyCondition all

end EcmaPrune.Expr
