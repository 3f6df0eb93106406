import EcmaPrune.Analysis.Truthiness
import EcmaPrune.Proofs.Semantics.Typing

/-! The verdicts on whether expressions are nullish are true. -/

namespace EcmaPrune

namespace Operator

/-- What an operator makes of its operand is nullish only if it drops the operand. -/
theorem isNullish_of_unaryGives {op : Operator} {s t : ValueType} (gives : op.UnaryGives s t) :
    t.IsNullish ↔ op = .void := by
  cases op with
  | void | typeof | logicalNot => cases gives; simp [ValueType.IsNullish]
  | unaryPlus => cases gives.2; simp [ValueType.IsNullish]
  | unaryNegation | bitwiseNot | prefixIncrement | prefixDecrement | postfixIncrement
  | postfixDecrement =>
    obtain ⟨p, _, found⟩ := gives
    -- All of them make numbers of one kind or the other.
    rcases ValueType.numeric_result found with rfl | rfl <;> simp [ValueType.IsNullish]
  | _ => exact gives.elim

/-- What an operator makes of the values of both operands is never nullish. -/
theorem not_isNullish_of_binaryGives {op : Operator} {s t result : ValueType}
    (gives : op.BinaryGives s t result) : ¬result.IsNullish := by
  unfold BinaryGives at gives
  -- A compound assignment gives what its operator gives.
  cases base : op.compound?.getD op with
  | addition =>
    rw [base] at gives
    obtain ⟨a, b, _, _, added⟩ := gives
    rcases ValueType.sum_result added with rfl | rfl | rfl <;> simp [ValueType.IsNullish]
  | subtraction | multiplication | division | remainder | exponentiation | bitwiseAnd
  | bitwiseOr | bitwiseXor | bitwiseLeftShift | bitwiseRightShift =>
    rw [base] at gives
    obtain ⟨a, b, _, _, found⟩ := gives
    rcases ValueType.numeric_result (ValueType.arithmetic_eq_some.mp found).1 with rfl | rfl <;>
      simp [ValueType.IsNullish]
  | strictEquality | strictInequality | equality | inequality =>
    rw [base] at gives
    cases gives
    simp [ValueType.IsNullish]
  | bitwiseUnsignedRightShift | lessThan | greaterThan | lessThanOrEqual | greaterThanOrEqual
  | in_ | instanceof =>
    rw [base] at gives
    cases gives.2
    simp [ValueType.IsNullish]
  | _ => simp [base] at gives

end Operator

namespace Expr

/-- A verdict is true of every type that the value of the expression may have. -/
theorem isNullish_of_mayBe {e : Expr} {t : ValueType} {verdict : Verdict} (possible : e.MayBe t)
    (found : e.nullish? = some verdict) : t.IsNullish ↔ verdict.value := by
  induction possible generalizing verdict with
  | inlinedEnum _ ih => exact ih found
  | null | undefined | boolean | number | string | bigInt | regExp | function | arrow | classExpr
  | array | object | delete =>
    cases found
    simp [ValueType.IsNullish, Verdict.pure, Verdict.effectful]
  | @unary _ op _ _ _ _ _ gives =>
    rw [Operator.isNullish_of_unaryGives gives]
    -- The only operator that gives nothing is the only one the verdict is yes for.
    cases op with
    | typeof => cases found; split <;> simp [Verdict.pure, Verdict.effectful]
    | _ => first | exact gives.elim | (cases found; simp [Verdict.effectful])
  | @binary _ op _ _ _ _ _ _ _ gives =>
    have never := Operator.not_isNullish_of_binaryGives gives
    cases op <;> first | exact gives.elim | (cases found; simp [never, Verdict.effectful])
  | @left _ op _ _ _ _ keeps =>
    -- No verdict is given on an operation that may result in its left operand.
    cases op <;> first | exact keeps.elim | cases found
  | @right _ op _ _ _ _ _ takes _ _ ih =>
    cases op with
    | comma =>
      obtain ⟨inner, known, rfl⟩ := Option.map_eq_some_iff.mp found
      have same := ih known
      exact same
    | _ => first | exact takes.elim | cases found
  | _ => cases found

/-- Evaluation bears out the verdict on whether an expression is nullish. -/
theorem eval_isNullish {W : Type} (host : Host W) {e : Expr} {verdict : Verdict}
    (found : e.nullish? = some verdict) :
    (e.eval host).Always fun value => value.isNullish = verdict.value := by
  refine (eval_type host e).imp fun value possible => ?_
  rw [Bool.eq_iff_iff, ← Value.isNullish_type]
  exact isNullish_of_mayBe possible found

/-- What is nullish without any effects is a literal, also as an inlined constant. -/
theorem eval_of_nullish_silent {W : Type} (host : Host W) {e : Expr}
    (found : e.nullish? = some ⟨true, false⟩) :
    ∃ value : Value, e.eval host = pure value ∧ value.isNullish := by
  induction e using induction_on_parts with
  | step e ih =>
    cases e with
    | inlinedEnum loc value comment =>
      rw [eval_inlinedEnum]
      exact ih value (by simp [parts]) found
    | null | undefined =>
      simp only [eval_null, eval_undefined]
      exact ⟨_, rfl, rfl⟩
    | unary loc op value fromIdentifier =>
      -- An operation may always do something, or it is not nullish.
      cases op with
      | typeof => simp only [nullish?] at found; split at found <;> cases found
      | _ => cases found
    | binary loc op left right =>
      cases op with
      | comma =>
        obtain ⟨inner, _, same⟩ := Option.map_eq_some_iff.mp found
        cases congrArg Verdict.hasEffects same
      | _ => cases found
    | _ => cases found

end Expr

end EcmaPrune
