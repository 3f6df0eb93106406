import EcmaPrune.Analysis.Constant
import EcmaPrune.Analysis.PrimitiveType
import EcmaPrune.Analysis.Truthiness
import EcmaPrune.Rewrite.Join

/-! Conditions: expressions of whose value only the truth is asked for. -/

namespace EcmaPrune.Expr

/-- The negation of an expression, where there is a form of it that is not longer. -/
def negate? : Expr → Option Expr
  | null loc => some (boolean loc true)
  | undefined loc => some (boolean loc true)
  | boolean loc value => some (boolean loc !value)
  | number loc value => some (boolean loc !value.isTruthy)
  | bigInt loc literal => (BigInt.isZero? literal).map (boolean loc)
  | string loc value => some (boolean loc value.isEmpty)
  | function loc _ => some (boolean loc false)
  | arrow loc .. => some (boolean loc false)
  | regExp loc _ => some (boolean loc false)
  | inlinedEnum _ value _ => value.negate?
  -- A double negation goes only where it would not change the value.
  | unary _ .logicalNot value _ => if value.primitiveType == .boolean then some value else none
  | binary loc op left right =>
    match op.negatedEquality with
    | some negated => some (binary loc negated left right)
    | none =>
      if op == .comma then
        some (binary loc .comma left
          (right.negate?.getD (unary right.loc .logicalNot right false)))
      else none
  | _ => none

/-- The negation of an expression, folded where possible. -/
def negate (e : Expr) : Expr := e.negate?.getD (unary e.loc .logicalNot e false)

/-- The negation of a condition, which may drop a negation whatever its operand is. -/
def negateCondition : Expr → Expr
  | unary _ .logicalNot value _ => value
  | e => e.negate

/-- A logical operation on conditions, without a right operand that decides nothing. -/
def logicalCondition (loc : Loc) (op : Operator) (left right : Expr) : Expr :=
  match right.truth? with
  | some ⟨value, false⟩ =>
    if value == (op == .logicalAnd) then left else binary loc op left right
  | _ => binary loc op left right

/-- Either zero as a literal. -/
def isZeroLiteral : Expr → Bool
  | number _ value => value.isZero
  | _ => false

/--
Whether comparing with a zero on the right only asks whether the left side is true.

The left side must be an integer, and a strict comparison needs it not to be a big one.
-/
def asksForZero (op : Operator) (left right : Expr) : Bool :=
  op.isEquality && right.isZeroLiteral && left.isInt32 &&
    (op == .equality || op == .inequality || left.primitiveType == .number)

/-- The truth value of an expression that does nothing else. -/
def pureTruth? (e : Expr) : Option Bool :=
  match e.truth? with
  | some ⟨value, false⟩ => some value
  | _ => none

/-- A choice between conditions, written as a logical operation if one of them is known. -/
def chooseCondition (loc : Loc) (test yes no : Expr) : Expr :=
  match yes.pureTruth?, no.pureTruth? with
  | some true, _ => joinBy logicalCondition .logicalOr test no
  | some false, _ => joinBy logicalCondition .logicalAnd test.negateCondition no
  | none, some true => joinBy logicalCondition .logicalOr test.negateCondition yes
  | none, some false => joinBy logicalCondition .logicalAnd test yes
  | none, none => conditional loc test yes no

/-- Rewrites a condition; its truth and its effects stay, its value may not. -/
def simplifyCondition : Expr → Expr
  | unary loc op value fromIdentifier =>
    if op = .logicalNot then value.simplifyCondition.negateCondition
    else unary loc op value fromIdentifier
  | binary loc op left right =>
    if asksForZero op left right then
      if op == .inequality || op == .strictInequality then left.simplifyCondition
      else left.simplifyCondition.negateCondition
    else if op.isAndOr then
      logicalCondition loc op left.simplifyCondition right.simplifyCondition
    else binary loc op left right
  | conditional loc test yes no =>
    chooseCondition loc test.simplifyCondition yes.simplifyCondition no.simplifyCondition
  | e => e

/-- A shorter negation adds one node at most, as a negation behind a comma. -/
theorem nodeCount_negate? {e negated : Expr} (found : e.negate? = some negated) :
    negated.nodeCount ≤ e.nodeCount + 1 := by
  fun_induction negate? e generalizing negated with
  | case5 loc literal =>
    obtain ⟨zero, _, same⟩ := Option.map_eq_some_iff.mp found
    subst same
    simp
  -- The wrapper of an inlined constant is dropped.
  | case10 loc value comment ih => have := ih found; simp; omega
  | case11 =>
    simp only [Option.some.injEq] at found
    subst found
    simp
    omega
  -- A comparison only changes its operator.
  | case13 loc op left right other same =>
    simp only [Option.some.injEq] at found
    subst found
    simp
  | case14 loc op left right plain isComma ih =>
    -- Only the right side of a sequence is negated.
    simp only [Option.some.injEq] at found
    subst found
    cases inner : right.negate? with
    | none => simp; omega
    | some shorter => have := ih inner; simp; omega
  | case12 | case15 | case16 => simp at found
  | _ =>
    -- What is left are literals, whose negation is a literal.
    simp only [Option.some.injEq] at found
    subst found
    simp

/-- Negating adds one node at most. -/
theorem nodeCount_negate (e : Expr) : e.negate.nodeCount ≤ e.nodeCount + 1 := by
  unfold negate
  cases found : e.negate? with
  | none => simp
  | some negated => exact nodeCount_negate? found

/-- Negating a condition adds one node at most. -/
theorem nodeCount_negateCondition (e : Expr) :
    e.negateCondition.nodeCount ≤ e.nodeCount + 1 := by
  unfold negateCondition
  split
  · simp; omega
  · exact nodeCount_negate _

/-- A logical operation on conditions adds one node at most. -/
theorem nodeCount_logicalCondition (op : Operator) (loc : Loc) (left right : Expr) :
    (logicalCondition loc op left right).nodeCount ≤ left.nodeCount + right.nodeCount + 1 := by
  unfold logicalCondition
  split
  · split
    · omega
    · simp
  · simp

/-- A choice between conditions is no larger than the choice written out. -/
theorem nodeCount_chooseCondition (loc : Loc) (test yes no : Expr) :
    (chooseCondition loc test yes no).nodeCount ≤
      test.nodeCount + yes.nodeCount + no.nodeCount + 1 := by
  -- The branch that is left out makes room for the negation.
  have yesPos := yes.nodeCount_pos
  have noPos := no.nodeCount_pos
  have negated := nodeCount_negateCondition test
  unfold chooseCondition
  split
  · have := nodeCount_joinBy (nodeCount_logicalCondition .logicalOr) test no
    omega
  · have := nodeCount_joinBy (nodeCount_logicalCondition .logicalAnd) test.negateCondition no
    omega
  · have := nodeCount_joinBy (nodeCount_logicalCondition .logicalOr) test.negateCondition yes
    omega
  · have := nodeCount_joinBy (nodeCount_logicalCondition .logicalAnd) test yes
    omega
  · simp

/-- Rewriting a condition never makes it larger. -/
theorem nodeCount_simplifyCondition (e : Expr) : e.simplifyCondition.nodeCount ≤ e.nodeCount := by
  fun_induction simplifyCondition e with
  | case1 loc value fromIdentifier ih =>
    -- The negation that is there makes room for the one that may be added.
    have := nodeCount_negateCondition value.simplifyCondition
    simp
    omega
  | case3 loc op left right asks isInequality ih => simp; omega
  | case4 loc op left right asks isEquality ih =>
    -- The zero that is dropped makes room for the negation.
    have := nodeCount_negateCondition left.simplifyCondition
    have := right.nodeCount_pos
    simp
    omega
  | case5 loc op left right asks isAndOr leftBound rightBound =>
    have := nodeCount_logicalCondition op loc left.simplifyCondition right.simplifyCondition
    simp
    omega
  | case7 loc test yes no testBound yesBound noBound =>
    have := nodeCount_chooseCondition loc test.simplifyCondition yes.simplifyCondition
      no.simplifyCondition
    simp
    omega
  | case2 | case6 | case8 => simp

end EcmaPrune.Expr
