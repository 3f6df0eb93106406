import EcmaPrune.Number.BigInt
import EcmaPrune.Tree

/-! Expressions that are known to be true or false, or to be nullish or not. -/

namespace EcmaPrune

/-- A fact about the value of an expression, and whether evaluating it may do anything. -/
structure Verdict where
  value : Bool
  hasEffects : Bool
deriving DecidableEq, Repr

namespace Verdict

/-- A verdict on an expression that does nothing but produce its value. -/
def pure (value : Bool) : Verdict := ⟨value, false⟩

/-- A verdict on an expression that may do something else. -/
def effectful (value : Bool) : Verdict := ⟨value, true⟩

/-- The opposite verdict on the same expression. -/
def negated (v : Verdict) : Verdict := ⟨!v.value, v.hasEffects⟩

/-- The same verdict on a larger expression that may do something. -/
def withEffects (v : Verdict) : Verdict := ⟨v.value, true⟩

end Verdict

namespace Expr

/-- A bare identifier, whose type can be asked for even if nothing declares it. -/
def isIdentifier : Expr → Bool
  | identifier .. => true
  | _ => false

/-- Whether an expression is `null` or `undefined`, where that is known. -/
def nullish? : Expr → Option Verdict
  | inlinedEnum _ value _ => value.nullish?
  | boolean .. | number .. | string .. | regExp .. | function .. | arrow .. | bigInt .. =>
    some (.pure false)
  | object .. | array .. | classExpr .. => some (.effectful false)
  | null _ | undefined _ => some (.pure true)
  | unary _ op _ fromIdentifier =>
    match op with
    | .unaryPlus | .unaryNegation | .bitwiseNot | .prefixDecrement | .prefixIncrement
    | .postfixDecrement | .postfixIncrement | .logicalNot | .delete => some (.effectful false)
    | .typeof => some (if fromIdentifier then .pure false else .effectful false)
    | .void => some (.effectful true)
    | _ => none
  | binary _ op _ right =>
    match op with
    | .addition | .assignmentAddition | .subtraction | .multiplication | .division | .remainder
    | .exponentiation | .assignmentSubtraction | .assignmentMultiplication | .assignmentDivision
    | .assignmentRemainder | .assignmentExponentiation | .bitwiseLeftShift | .bitwiseRightShift
    | .bitwiseUnsignedRightShift | .assignmentBitwiseLeftShift | .assignmentBitwiseRightShift
    | .assignmentBitwiseUnsignedRightShift | .bitwiseAnd | .bitwiseOr | .bitwiseXor
    | .assignmentBitwiseAnd | .assignmentBitwiseOr | .assignmentBitwiseXor | .lessThan
    | .lessThanOrEqual | .greaterThan | .greaterThanOrEqual | .in_ | .instanceof | .equality
    | .inequality | .strictEquality | .strictInequality => some (.effectful false)
    | .comma => right.nullish?.map Verdict.withEffects
    | _ => none
  | _ => none

/-- The truth value of an expression, where it is known. -/
def truth? : Expr → Option Verdict
  | inlinedEnum _ value _ => value.truth?
  | null _ | undefined _ => some (.pure false)
  | boolean _ value => some (.pure value)
  | number _ value => some (.pure value.isTruthy)
  | bigInt _ literal => (BigInt.isZero? literal).map fun zero => .pure !zero
  | string _ value => some (.pure !value.isEmpty)
  | function .. | arrow .. | regExp .. => some (.pure true)
  | object .. | array .. | classExpr .. => some (.effectful true)
  | unary _ op value fromIdentifier =>
    match op with
    | .void => some (.effectful false)
    -- The name of a type is never empty.
    | .typeof =>
      some (if fromIdentifier && value.isIdentifier then .pure true else .effectful true)
    | .logicalNot => value.truth?.map Verdict.negated
    | _ => none
  | binary _ op _ right =>
    match op with
    -- Whatever the left side is, a true right side makes an alternative true.
    | .logicalOr =>
      match right.truth? with
      | some ⟨true, _⟩ => some (.effectful true)
      | _ => none
    -- Whatever the left side is, a false right side makes a conjunction false.
    | .logicalAnd =>
      match right.truth? with
      | some ⟨false, _⟩ => some (.effectful false)
      | _ => none
    | .comma => right.truth?.map Verdict.withEffects
    | _ => none
  | _ => none

end Expr

end EcmaPrune
