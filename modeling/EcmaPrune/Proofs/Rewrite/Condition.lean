import EcmaPrune.Proofs.Analysis.Integer
import EcmaPrune.Proofs.Analysis.PrimitiveType
import EcmaPrune.Proofs.Analysis.Truthiness
import EcmaPrune.Rewrite.Condition

/-! Rewriting a condition keeps what it does and whether it holds. -/

namespace EcmaPrune.Expr

variable {W : Type} (host : Host W)

/-- Negated equality operators have opposite answers. -/
theorem truth_negatedEquality {loc : Loc} {op negated : Operator} {left right : Expr}
    (opposed : op.negatedEquality = some negated) :
    (binary loc negated left right).truth host =
      ((binary loc op left right).truth host).opposite := by
  -- Both operators look at the same two values, which are evaluated in the same way.
  have takes : op.takesValues ∧ negated.takesValues := by
    cases op <;> cases opposed <;> exact ⟨rfl, rfl⟩
  simp only [truth, eval_binary host loc takes.1, eval_binary host loc takes.2, map_bind,
    Run.opposite_bind]
  congr 1; funext first; congr 1; funext second
  cases op <;> cases opposed <;>
    simp [Host.applyBinary, Run.opposite, Value.toBoolean]

/-- The negation of an expression does the same and has the opposite truth. -/
theorem truth_negate? {e negated : Expr} (found : e.negate? = some negated) :
    negated.truth host = (e.truth host).opposite := by
  fun_induction negate? e generalizing negated with
  | case1 loc | case2 loc | case3 loc | case4 loc | case6 loc =>
    -- The truth of a literal is that of its value.
    cases found
    simp [truth, Value.toBoolean]
  | case5 loc literal =>
    -- The literal of a big integer has a value here, which is zero or not.
    obtain ⟨zero, isZero, rfl⟩ := Option.map_eq_some_iff.mp found
    rw [truth_boolean, truth_bigInt host isZero, Run.opposite_pure, Bool.not_not]
  | case7 loc func =>
    cases found
    -- An object that a literal creates is true.
    rw [truth_boolean, truth_of_create host loc (eval_function host loc func)]
    rfl
  | case8 loc =>
    cases found
    rw [truth_boolean, truth_of_create host loc (eval_arrow host loc _ _ _ _)]
    rfl
  | case9 loc text =>
    cases found
    rw [truth_boolean, truth_of_create host loc (eval_regExp host loc text)]
    rfl
  | case10 loc value comment ih => rw [truth_inlinedEnum, ih found]
  | case11 => cases found; rw [truth_not, Run.opposite_opposite]
  | case13 loc op left right other opposed => cases found; exact truth_negatedEquality host opposed
  | case14 loc op left right plain isComma ih =>
    obtain rfl : op = .comma := by simpa using isComma
    cases found
    rw [truth_comma, truth_comma, Run.opposite_bind]
    -- The right side is negated in whichever way there is.
    cases inner : right.negate? with
    | none => simp
    | some shorter => simp [ih inner]
  | case12 | case15 | case16 => cases found

theorem truth_negate (e : Expr) : e.negate.truth host = (e.truth host).opposite := by
  unfold negate
  cases found : e.negate? with
  | none => exact truth_not host _ e false
  | some negated => exact truth_negate? host found

/-- A negation that is dropped from a condition has the truth of its operand. -/
theorem truth_negateCondition (e : Expr) :
    e.negateCondition.truth host = (e.truth host).opposite := by
  unfold negateCondition
  -- A double negation is dropped, and anything else is negated.
  split
  · simp
  · exact truth_negate host _

/-- A right operand is left out only if it does nothing and would decide nothing. -/
theorem truth_logicalCondition {loc : Loc} {op : Operator} (isAndOr : op.isAndOr)
    (left right : Expr) :
    (logicalCondition loc op left right).truth host =
      Run.shortCircuit (op == .logicalAnd) (left.truth host) (right.truth host) := by
  unfold logicalCondition
  split
  · rename_i value known
    split
    · rename_i decidesNothing
      -- The right operand is silent, and its truth is the one with which the operation goes on.
      have same : value = (op == .logicalAnd) := by simpa using decidesNothing
      rw [truth_of_verdict host known rfl, same, Run.shortCircuit_pure]
    · exact truth_logical host loc isAndOr left right
  · exact truth_logical host loc isAndOr left right

/-- Rewriting the last operand of a sequence keeps what runs in front of it. -/
theorem truth_rewriteLast {f : Expr → Expr} {goesOn : Bool} {second : Run W Bool}
    (rewritten : ∀ e, (f e).truth host = Run.shortCircuit goesOn (e.truth host) second) (e : Expr) :
    (rewriteLast f e).truth host = Run.shortCircuit goesOn (e.truth host) second := by
  fun_induction rewriteLast f e with
  | case1 loc left right ih => rw [truth_comma, truth_comma, ih, Run.shortCircuit_bind]
  | case2 e => exact rewritten e

/-- Joining reassociates the operands, which leaves alone when they run and what they decide. -/
theorem truth_joinOnto {op : Operator} (isAndOr : op.isAndOr) (b chain : Expr) :
    (joinOnto logicalCondition op b chain).truth host =
      Run.shortCircuit (op == .logicalAnd) (chain.truth host) (b.truth host) := by
  fun_induction joinOnto logicalCondition op b chain with
  | case1 loc left right chain leftIh rightIh =>
    -- The operands of the second chain come one by one behind the last one of the first.
    rw [rightIh, truth_rewriteLast host leftIh, truth_logical host loc isAndOr,
      Run.shortCircuit_assoc]
  | case2 loc op' left right chain different => exact truth_logicalCondition host isAndOr _ _
  | case3 last chain plain => exact truth_logicalCondition host isAndOr _ _

/-- Joining two conditions is the operation on them. -/
theorem truth_joinBy {op : Operator} (isAndOr : op.isAndOr) (a b : Expr) :
    (joinBy logicalCondition op a b).truth host =
      Run.shortCircuit (op == .logicalAnd) (a.truth host) (b.truth host) :=
  truth_rewriteLast host (truth_joinOnto host isAndOr b) a

/-- An expression of known truth that does nothing else. -/
theorem truth_of_pureTruth? {e : Expr} {value : Bool} (known : e.pureTruth? = some value) :
    e.truth host = pure value := by
  unfold pureTruth? at known
  split at known
  · rename_i found
    cases known
    exact truth_of_verdict host found rfl
  · cases known

/-- A choice that is written as a logical operation is still the choice. -/
theorem truth_chooseCondition (loc : Loc) (test yes no : Expr) :
    (chooseCondition loc test yes no).truth host =
      test.truth host >>= fun holds => if holds then yes.truth host else no.truth host := by
  -- Each way of writing the choice joins the test, or its negation, with one branch.
  have joinAnd := truth_joinBy host (show Operator.logicalAnd.isAndOr from rfl)
  have joinOr := truth_joinBy host (show Operator.logicalOr.isAndOr from rfl)
  unfold chooseCondition
  split
  case h_5 => rw [truth_conditional]
  -- A branch whose truth is known is what the operation stops with.
  all_goals
    rename_i known
    simp only [joinAnd, joinOr, truth_negateCondition, Run.shortCircuit, Run.bind_opposite,
      truth_of_pureTruth? host known]
    congr 1
    funext holds
    cases holds <;> rfl

/-- A comparison with zero of an integer asks for the truth of the integer. -/
theorem truth_of_asksForZero {loc : Loc} {op : Operator} {left right : Expr}
    (asks : asksForZero op left right) :
    (binary loc op left right).truth host =
      if op == .inequality || op == .strictInequality then left.truth host
      else (left.truth host).opposite := by
  simp only [asksForZero, Bool.and_eq_true] at asks
  obtain ⟨⟨⟨isEquality, isZero⟩, isInteger⟩, decides⟩ := asks
  cases right with
  | number zeroLoc zero =>
    -- A strict comparison also needs to be one of numbers.
    have known : (left.eval host).Always fun value =>
        value.IsInteger ∧ (left.primitiveType = .number → value.type = .number) := by
      refine (eval_integer host isInteger).and ?_
      by_cases isNumber : left.primitiveType = .number
      · exact (eval_valueType host (t := .number) (by rw [isNumber]; rfl)).imp fun _ same _ => same
      · exact (Run.always_true _).imp fun _ _ same => absurd same isNumber
    -- Comparing an integer with zero asks whether it is false.
    have compared : ∀ value : Value,
        value.IsInteger ∧ (left.primitiveType = .number → value.type = .number) →
        Value.toBoolean <$> host.applyBinary op value (.number zero) =
          pure (if op == .inequality || op == .strictInequality then value.toBoolean
            else !value.toBoolean) := by
      rintro value ⟨integer, isNumber⟩
      cases op with
      | equality | inequality =>
        simp [Host.applyBinary, host.looseEq_zero integer isZero, Value.toBoolean]
      | strictEquality | strictInequality =>
        have isNumber : value.type = .number := isNumber (by simpa using decides)
        simp [Host.applyBinary, Value.strictEq_zero integer isNumber isZero, Value.toBoolean]
      | _ => cases isEquality
    have plain : op.takesValues := by cases op <;> first | rfl | cases isEquality
    simp only [truth, eval_binary host loc plain, eval_number, pure_bind, map_bind,
      Run.bind_congr_of_always known compared]
    split <;> simp [Run.opposite]
  | _ => cases isZero

/-- A rewritten condition has the truth and the effects of the original. -/
theorem truth_simplifyCondition (e : Expr) :
    e.simplifyCondition.truth host = e.truth host := by
  fun_induction simplifyCondition e with
  | case1 loc value fromIdentifier ih => rw [truth_negateCondition, ih, truth_not]
  | case3 loc op left right asks isInequality ih =>
    rw [ih, truth_of_asksForZero host asks, if_pos isInequality]
  | case4 loc op left right asks isEquality ih =>
    rw [truth_negateCondition, ih, truth_of_asksForZero host asks, if_neg isEquality]
  | case5 loc op left right asks isAndOr leftIh rightIh =>
    rw [truth_logicalCondition host isAndOr, leftIh, rightIh, truth_logical host loc isAndOr]
  | case7 loc test yes no testIh yesIh noIh =>
    rw [truth_chooseCondition, testIh, yesIh, noIh, truth_conditional]
  | case2 | case6 | case8 => rfl

/--
Rewriting a condition is not observable.

In every world the same events happen in the same order, the same world is left, and the same is
thrown, or else both values are true or both are false.
-/
theorem simplifyCondition_agrees (e : Expr) (w : W) :
    (e.simplifyCondition.eval host w).events = (e.eval host w).events ∧
      (e.simplifyCondition.eval host w).world = (e.eval host w).world ∧
      (e.simplifyCondition.eval host w).result.map Value.toBoolean =
        (e.eval host w).result.map Value.toBoolean := by
  -- The truth of an expression has all of its outcome but the value behind the truth.
  have same := congrFun (truth_simplifyCondition host e) w
  simpa only [truth, Run.map_apply, Outcome.mk.injEq] using same

end EcmaPrune.Expr
