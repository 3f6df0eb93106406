import EcmaPrune.Minify.Mangle
import EcmaPrune.Proofs.Analysis.Constant
import EcmaPrune.Proofs.Analysis.Nullishness
import EcmaPrune.Proofs.Rewrite.Condition
import EcmaPrune.Proofs.Semantics.Refer
import EcmaPrune.Proofs.Semantics.Silence

/-! Each rewrite of one expression keeps its value. -/

namespace EcmaPrune

/-- Values of one primitive type are equal under `==` where they are equal under `===`. -/
theorem Host.looseEq_of_type_eq {W : Type} (host : Host W) {a b : Value} (same : a.type = b.type)
    (primitive : a.type ≠ .object) : host.looseEq a b = pure (a.strictEq b) := by
  rw [host.looseEq_of_primitive primitive (same ▸ primitive)]
  congr 1
  -- Nullish values of one type are the same value.
  cases a <;> cases b <;> first | rfl | cases same

/-- A specific verdict names the type of a primitive. -/
theorem PrimitiveType.exists_valueType? {verdict : PrimitiveType} (specific : verdict.isSpecific) :
    ∃ t : ValueType, verdict.valueType? = some t ∧ t ≠ .object := by
  cases verdict <;> first | exact ⟨_, rfl, by simp⟩ | cases specific

namespace Expr

/-- What has a known type refers to its value, as places may have any type. -/
theorem refersToValue_of_primitiveType {e : Expr} (known : e.primitiveType ≠ .unknown) :
    e.refersToValue := by
  induction e using induction_on_parts with
  | step e ih =>
    cases e with
    | inlinedEnum loc value comment => exact ih value (by simp [parts]) known
    | identifier | dot | index | call => exact absurd rfl known
    | template loc tag head substitutions => cases tag <;> first | rfl | exact absurd rfl known
    | _ => rfl

/-- What is known to be nullish or not refers to its value. -/
theorem refersToValue_of_nullish? {e : Expr} {verdict : Verdict}
    (found : e.nullish? = some verdict) : e.refersToValue := by
  induction e using induction_on_parts with
  | step e ih =>
    cases e with
    | inlinedEnum loc value comment => exact ih value (by simp [parts]) found
    | identifier | dot | index | call | template => cases found
    | _ => rfl

/-- A shorter negation is a boolean. -/
theorem primitiveType_negate? {e negated : Expr} (found : e.negate? = some negated) :
    negated.primitiveType = .boolean := by
  fun_induction negate? e generalizing negated with
  | case5 loc literal =>
    obtain ⟨zero, _, rfl⟩ := Option.map_eq_some_iff.mp found
    rfl
  | case10 loc value comment ih => exact ih found
  | case11 loc value fromIdentifier isBoolean => cases found; simpa using isBoolean
  | case13 loc op left right other opposed => cases found; cases op <;> cases opposed <;> rfl
  | case14 loc op left right plain isComma ih =>
    cases found
    -- A sequence has the type of its last operand.
    cases inner : right.negate? with
    | none => rfl
    | some shorter =>
      have isBoolean := ih inner
      exact isBoolean
  | case12 | case15 | case16 => cases found
  | _ => cases found; rfl

variable {W : Type} (host : Host W) {loc : Loc} {left right : Expr}

/-- A boolean is known once its truth is. -/
theorem eval_of_boolean {e : Expr} (isBoolean : e.primitiveType = .boolean) :
    e.eval host = Value.boolean <$> e.truth host := by
  have typed : (e.eval host).Always fun value => value.type = .boolean :=
    eval_valueType host (by rw [isBoolean]; rfl)
  have same : e.eval host >>= pure =
      e.eval host >>= fun value => pure (.boolean value.toBoolean) := by
    refine Run.bind_congr_of_always typed fun value isBoolean => ?_
    cases value <;> cases isBoolean
    rfl
  rw [bind_pure] at same
  rw [same, truth]
  simp

/-- A shorter negation has the value of the negation. -/
theorem eval_negate? {value negated : Expr} (found : value.negate? = some negated)
    (fromIdentifier : Bool) :
    negated.eval host = (unary loc .logicalNot value fromIdentifier).eval host := by
  rw [eval_of_boolean host (primitiveType_negate? found), truth_negate? host found,
    eval_of_boolean host rfl, truth_not]

/-- A loose comparison of one specific type has the value of the strict one. -/
theorem eval_loosened {op : Operator} (strict : op = .strictEquality ∨ op = .strictInequality)
    (same : left.strictMayBeLoose right) :
    (binary loc op.loosened left right).eval host = (binary loc op left right).eval host := by
  obtain ⟨sameType, specific⟩ := Bool.and_eq_true_iff.mp same
  have sameType := beq_iff_eq.mp sameType
  -- A specific type is one that the values of both sides have, and it is that of a primitive.
  obtain ⟨t, named, primitive⟩ := PrimitiveType.exists_valueType? specific
  have loosened : op.takesValues ∧ op.loosened.takesValues := by
    rcases strict with rfl | rfl <;> exact ⟨rfl, rfl⟩
  rw [eval_binary host loc loosened.1, eval_binary host loc loosened.2]
  have firstTyped := eval_valueType host named
  have secondTyped := eval_valueType host (sameType ▸ named)
  refine Run.bind_congr_of_always firstTyped fun first firstType => ?_
  refine Run.bind_congr_of_always secondTyped fun second secondType => ?_
  have equal := host.looseEq_of_type_eq (firstType.trans secondType.symm) (firstType ▸ primitive)
  rcases strict with rfl | rfl <;> simp [Operator.loosened, Host.applyBinary, equal]

/-- Deciding or loosening a strict comparison keeps its value. -/
theorem eval_mangleStrict {op : Operator} (strict : op = .strictEquality ∨ op = .strictInequality)
    (looseAllowed : Bool) :
    (mangleStrict looseAllowed loc op left right).value.eval host =
      (binary loc op left right).eval host := by
  unfold mangleStrict
  split
  · rename_i equal known
    -- Both sides are constants with values of their own.
    obtain ⟨first, second, leftEval, rightEval, compared⟩ := eval_of_constantEq? host known
    have plain : op.takesValues := by rcases strict with rfl | rfl <;> rfl
    rw [eval_binary host loc plain, leftEval, rightEval]
    rcases strict with rfl | rfl <;> cases equal <;>
      simp [Counted.rewritten, Host.applyBinary, compared] <;> rfl
  · split
    · rename_i loose
      exact eval_loosened host strict (Bool.and_eq_true_iff.mp loose).2
    · rfl

/-- Making a choice by nullishness that is known keeps its value. -/
theorem eval_mangleNullish :
    (mangleNullish loc left right).value.eval host =
      (binary loc .nullishCoalescing left right).eval host := by
  unfold mangleNullish
  rw [eval_coalesce]
  split
  · rename_i hasEffects known
    -- The left side is never replaced.
    have kept : (left.eval host >>= fun first =>
        if first.isNullish then right.eval host else pure first) = left.eval host >>= pure :=
      Run.bind_congr_of_always (eval_isNullish host known) fun first notNullish =>
        if_neg (by simp [notNullish])
    rw [kept, bind_pure]
    rfl
  · rename_i known
    -- The left side does nothing, and is always replaced.
    obtain ⟨first, fixed, isNullish⟩ := eval_of_nullish_silent host known
    rw [fixed, pure_bind, if_pos isNullish]
    rfl
  · rw [← eval_coalesce host loc]
    rfl

end Expr

end EcmaPrune
