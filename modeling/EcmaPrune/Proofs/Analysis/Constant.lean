import EcmaPrune.Analysis.Constant
import EcmaPrune.Proofs.Analysis.PrimitiveType

/-! The verdicts on the equality of constants are true. -/

namespace EcmaPrune

namespace Value

theorem strictEq_boolean (a b : Bool) : (boolean a).strictEq (boolean b) = (a == b) := by
  rw [Bool.eq_iff_iff]
  simp [strictEq]

theorem strictEq_string (a b : List UInt16) : (string a).strictEq (string b) = (a == b) := by
  rw [Bool.eq_iff_iff]
  simp [strictEq]

theorem strictEq_bigInt (a b : Int) : (bigInt a).strictEq (bigInt b) = (a == b) := by
  rw [Bool.eq_iff_iff]
  simp [strictEq]

/-- Values of two types are never equal. -/
theorem strictEq_of_ne_type {a b : Value} (different : a.type ≠ b.type) :
    a.strictEq b = false := by
  cases a <;> cases b <;> first | exact absurd rfl different | rfl

end Value

namespace Expr

variable {W : Type} (host : Host W)

/-- The wrappers of inlined constants do nothing. -/
theorem eval_unwrapped (e : Expr) : e.unwrapped.eval host = e.eval host := by
  induction e using induction_on_parts with
  | step e ih =>
    cases e with
    | inlinedEnum loc value comment =>
      rw [eval_inlinedEnum]
      exact ih value (by simp [parts])
    | _ => rfl

/-- A literal has a value of the type of its kind. -/
theorem eval_of_isPrimitiveLiteralKind {e : Expr} (literal : e.isPrimitiveLiteralKind) :
    ∃ value : Value, e.eval host = pure value ∧
      e.primitiveType.valueType? = some value.type := by
  cases e with
  | null | undefined | boolean | number | bigInt | string =>
    simp only [eval_null, eval_undefined, eval_boolean, eval_number, eval_bigInt, eval_string]
    exact ⟨_, rfl, rfl⟩
  | _ => cases literal

/-- Literals that are known to be equal or not have values that are so under `===`. -/
theorem eval_of_literalEq? {left right : Expr} {equal : Bool}
    (found : literalEq? left right = some equal) :
    ∃ first second, left.eval host = pure first ∧ right.eval host = pure second ∧
      first.strictEq second = equal := by
  unfold literalEq? at found
  split at found
  -- Two literals of one kind have the values that are compared.
  · cases found; exact ⟨_, _, eval_null .., eval_null .., rfl⟩
  · cases found; exact ⟨_, _, eval_undefined .., eval_undefined .., rfl⟩
  · cases found; exact ⟨_, _, eval_boolean .., eval_boolean .., Value.strictEq_boolean _ _⟩
  · cases found; exact ⟨_, _, eval_number .., eval_number .., rfl⟩
  · refine ⟨_, _, eval_bigInt .., eval_bigInt .., ?_⟩
    rw [Value.strictEq_bigInt]
    split at found
    · -- One spelling has one value, if it has any.
      rename_i same
      cases found
      simp [beq_iff_eq.mp same]
    · split at found
      · rename_i m n leftValue rightValue
        cases found
        simp [leftValue, rightValue]
      · cases found
  · cases found; exact ⟨_, _, eval_string .., eval_string .., Value.strictEq_string _ _⟩
  · -- Literals of two kinds have values of two types.
    rename_i notNull notUndefined notBoolean notNumber notBigInt notString
    split at found
    · rename_i literals
      obtain ⟨leftLiteral, rightLiteral⟩ := Bool.and_eq_true_iff.mp literals
      cases found
      obtain ⟨first, leftEval, leftType⟩ := eval_of_isPrimitiveLiteralKind host leftLiteral
      obtain ⟨second, rightEval, rightType⟩ := eval_of_isPrimitiveLiteralKind host rightLiteral
      refine ⟨first, second, leftEval, rightEval, Value.strictEq_of_ne_type fun same => ?_⟩
      rw [same, ← rightType] at leftType
      cases left with
      | null | undefined | boolean | number | bigInt | string =>
        cases right with
        | null | undefined | boolean | number | bigInt | string =>
          first
          | exact notNull _ _ rfl rfl
          | exact notUndefined _ _ rfl rfl
          | exact notBoolean _ _ _ _ rfl rfl
          | exact notNumber _ _ _ _ rfl rfl
          | exact notBigInt _ _ _ _ rfl rfl
          | exact notString _ _ _ _ rfl rfl
          | cases leftType
        | _ => cases rightLiteral
      | _ => cases leftLiteral
    · cases found

/-- Constants that are known to be equal or not have values that are so under `===`. -/
theorem eval_of_constantEq? {left right : Expr} {equal : Bool}
    (found : left.constantEq? right = some equal) :
    ∃ first second, left.eval host = pure first ∧ right.eval host = pure second ∧
      first.strictEq second = equal := by
  rw [← eval_unwrapped host left, ← eval_unwrapped host right]
  exact eval_of_literalEq? host found

end Expr

end EcmaPrune
