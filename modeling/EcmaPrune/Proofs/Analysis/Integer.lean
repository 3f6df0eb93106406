import EcmaPrune.Analysis.Constant
import EcmaPrune.Proofs.Number
import EcmaPrune.Proofs.Semantics.EvalLaws

/-! Bitwise operations result in integers, which are false only where they equal zero. -/

namespace EcmaPrune

variable {W : Type}

namespace Value

/-- A number other than NaN, or a big integer. -/
def IsInteger : Value → Prop
  | number x => x.isNaN = false
  | bigInt _ => True
  | _ => False

/-- A number is strictly equal to zero if it is false. -/
theorem strictEq_zero {value : Value} {zero : Number} (integer : value.IsInteger)
    (isNumber : value.type = .number) (isZero : zero.isZero) :
    value.strictEq (number zero) = !value.toBoolean := by
  cases value with
  | number x =>
    -- Among the numbers, only a zero equals a zero, and only NaN is false besides.
    have isNumber : x.isNaN = false := integer
    simp [strictEq, toBoolean, Number.isTruthy, Number.numericEq_zero isNumber isZero, isNumber]
  | _ => cases isNumber

end Value

namespace Host

variable (host : Host W)

/-- An integer of either kind is loosely equal to zero if it is false. -/
theorem looseEq_zero {value : Value} {zero : Number} (integer : value.IsInteger)
    (isZero : zero.isZero) : host.looseEq value (.number zero) = pure !value.toBoolean := by
  cases value with
  -- Two numbers compare loosely as they do strictly.
  | number x => exact congrArg pure (Value.strictEq_zero integer rfl isZero)
  | bigInt n =>
    -- A big integer is compared by its place among the numbers.
    have order := Number.orderToBigInt_zero isZero n
    have answer : (zero.orderToBigInt n == some .eq) = !(n != 0) := by
      rw [Bool.eq_iff_iff]
      simp [order]
    exact congrArg pure answer
  | _ => exact integer.elim

/-- Bitwise operations on numbers result in integers. -/
theorem calculate_integer {op : Operator} {m n : Numeric}
    (bitwise : ∀ a b, (Number.bitwise? op a b).isSome) :
    (host.calculate op m n).Always Value.IsInteger := by
  unfold calculate
  split
  · rename_i a b
    obtain ⟨result, found⟩ := Option.isSome_iff_exists.mp (bitwise a b)
    -- The result is made of an integer, so it is a number.
    rw [found]
    exact Run.always_pure (Number.isNaN_ofInt result)
  · split
    · exact Run.always_abort _ _
    · split
      · exact Run.always_pure trivial
      · exact Run.always_abort _ _
  · exact Run.always_abort _ _

end Host

namespace Expr

variable (host : Host W)

/-- A bitwise operation on two values results in an integer. -/
theorem eval_integer_of_bitwise {loc : Loc} {op : Operator} {left right : Expr}
    (plain : op.takesValues) (applied : ∀ first second, host.applyBinary op first second =
      host.toNumeric first >>= fun m => host.toNumeric second >>= fun n => host.calculate op m n)
    (bitwise : ∀ a b, (Number.bitwise? op a b).isSome) :
    ((binary loc op left right).eval host).Always Value.IsInteger := by
  rw [eval_binary host loc plain]
  refine Run.always_seq fun first => Run.always_seq fun second => ?_
  rw [applied]
  exact Run.always_seq fun m => Run.always_seq fun n => host.calculate_integer bitwise

/-- What is known to be a 32-bit integer is one, or a big integer. -/
theorem eval_integer {e : Expr} (known : e.isInt32) : (e.eval host).Always Value.IsInteger := by
  fun_induction isInt32 e with
  | case1 loc op value fromIdentifier =>
    obtain rfl : op = .bitwiseNot := by simpa using known
    rw [eval_unary host loc rfl]
    -- A complement is made of an integer, whichever kind the operand is of.
    refine Run.always_seq fun first => Run.always_seq fun n => ?_
    cases n with
    | number x => exact Run.always_pure (Number.isNaN_ofInt _)
    | bigInt n => exact Run.always_pure trivial
  | case2 | case3 | case4 | case5 | case6 | case7 =>
    exact eval_integer_of_bitwise host rfl (fun _ _ => rfl) fun _ _ => rfl
  | case8 loc left right leftInteger rightInteger =>
    -- Either side may be the result, and both are integers.
    obtain ⟨leftKnown, rightKnown⟩ := Bool.and_eq_true_iff.mp known
    rw [eval_or]
    refine (leftInteger leftKnown).bind fun first integer => ?_
    split
    · exact Run.always_pure integer
    · exact rightInteger rightKnown
  | case9 loc left right leftInteger rightInteger =>
    obtain ⟨leftKnown, rightKnown⟩ := Bool.and_eq_true_iff.mp known
    rw [eval_and]
    refine (leftInteger leftKnown).bind fun first integer => ?_
    split
    · exact rightInteger rightKnown
    · exact Run.always_pure integer
  | case11 loc test yes no yesInteger noInteger =>
    obtain ⟨yesKnown, noKnown⟩ := Bool.and_eq_true_iff.mp known
    rw [eval_conditional]
    refine Run.always_seq fun first => ?_
    split
    · exact yesInteger yesKnown
    · exact noInteger noKnown
  | case10 | case12 => cases known

end Expr

end EcmaPrune
