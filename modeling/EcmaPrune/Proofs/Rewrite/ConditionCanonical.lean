import EcmaPrune.Proofs.Analysis.Canonical
import EcmaPrune.Rewrite.Condition

/-! Equal conditions are rewritten into equal ones. -/

namespace EcmaPrune.Expr

-- Canonical forms are read off one constructor at a time.
attribute [local simp] canonical

@[simp] theorem loc_canonical (e : Expr) : e.canonical.loc = default := by
  cases e <;> rfl

@[simp] theorem negate?_canonical : (e : Expr) →
    e.canonical.negate? = e.negate?.map canonical
  | bigInt _ literal => by
    cases found : BigInt.isZero? literal <;> simp [negate?, found]
  | inlinedEnum _ value _ => value.negate?_canonical
  | number .. => by simp [negate?]
  | unary _ op value _ => by
    cases op with
    | logicalNot =>
      simp only [canonical, negate?, primitiveType_canonical]
      split <;> rfl
    | _ => rfl
  | binary _ op left right => by
    cases found : op.negatedEquality with
    | some negated => simp [negate?, found]
    | none =>
      simp only [canonical, negate?, found, right.negate?_canonical, loc_canonical]
      split
      -- What is negated of a sequence is its last operand.
      · cases right.negate? <;> simp
      · rfl
  | array .. | arrow .. | boolean .. | call .. | classExpr .. | conditional .. | dot ..
  | function .. | identifier .. | importIdentifier .. | importMeta _ | index .. | missing _
  | new .. | null _ | object .. | regExp .. | spread .. | string .. | template .. | this _
  | undefined _ => rfl

@[simp] theorem negate_canonical (e : Expr) : e.canonical.negate = e.negate.canonical := by
  simp only [negate, negate?_canonical, loc_canonical]
  cases e.negate? <;> simp

@[simp] theorem negateCondition_canonical (e : Expr) :
    e.canonical.negateCondition = e.negateCondition.canonical := by
  fun_cases negateCondition e with
  | case1 => rfl
  | case2 e notNegation =>
    rw [← negate_canonical]
    cases e with
    | unary loc op value fromIdentifier =>
      cases op with
      | logicalNot => exact absurd rfl (notNegation loc value fromIdentifier)
      | _ => rfl
    | _ => rfl

theorem logicalCondition_canonical (loc : Loc) (op : Operator) (left right : Expr) :
    logicalCondition default op left.canonical right.canonical =
      (logicalCondition loc op left right).canonical := by
  simp only [logicalCondition, truth?_canonical]
  split
  · split <;> simp
  · simp

/-- What is rewritten into equal operands is rewritten into equal sequences of them. -/
theorem rewriteLast_canonical {f g : Expr → Expr}
    (commutes : ∀ e, g e.canonical = (f e).canonical) (e : Expr) :
    rewriteLast g e.canonical = (rewriteLast f e).canonical := by
  fun_induction rewriteLast f e with
  | case1 loc left right ih => simp [rewriteLast, ih]
  | case2 e notSequence =>
    rw [← commutes]
    cases e with
    | binary loc op left right =>
      cases op with
      | comma => exact absurd rfl (notSequence loc left right)
      | _ => rfl
    | _ => rfl

section

variable {combine : Loc → Operator → Expr → Expr → Expr}
  (commutes : ∀ loc op left right,
    combine default op left.canonical right.canonical = (combine loc op left right).canonical)
include commutes

theorem joinOnto_canonical (op : Operator) (b chain : Expr) :
    joinOnto combine op b.canonical chain.canonical =
      (joinOnto combine op b chain).canonical := by
  fun_induction joinOnto combine op b chain with
  | case1 loc left right chain ihLeft ihRight =>
    rw [canonical, joinOnto, if_pos rfl, rewriteLast_canonical (fun last => ihLeft last), ihRight]
  | case2 loc op' left right chain different =>
    rw [canonical, joinOnto, if_neg different, loc_canonical, ← commutes, canonical]
  | case3 last chain plain =>
    rw [← commutes]
    cases last with
    | binary loc op left right => exact absurd rfl (plain loc op left right)
    | _ =>
      rw [canonical, joinOnto, loc_canonical]
      simp

theorem joinBy_canonical (op : Operator) (a b : Expr) :
    joinBy combine op a.canonical b.canonical = (joinBy combine op a b).canonical :=
  rewriteLast_canonical (joinOnto_canonical commutes op b) a

end

theorem chooseCondition_canonical (loc : Loc) (test yes no : Expr) :
    chooseCondition default test.canonical yes.canonical no.canonical =
      (chooseCondition loc test yes no).canonical := by
  simp only [chooseCondition, pureTruth?_canonical, negateCondition_canonical,
    joinBy_canonical logicalCondition_canonical]
  split <;> simp

/-- Equal conditions are rewritten into equal ones. -/
@[simp] theorem simplifyCondition_canonical : (e : Expr) →
    e.canonical.simplifyCondition = e.simplifyCondition.canonical
  | unary _ op value _ => by
    simp only [canonical, simplifyCondition, value.simplifyCondition_canonical,
      negateCondition_canonical]
    split <;> simp
  | binary _ op left right => by
    simp only [canonical, simplifyCondition, asksForZero_canonical,
      left.simplifyCondition_canonical, right.simplifyCondition_canonical,
      negateCondition_canonical]
    split
    · split <;> rfl
    · split
      · exact logicalCondition_canonical ..
      · simp
  | conditional _ test yes no => by
    simp only [canonical, simplifyCondition, test.simplifyCondition_canonical,
      yes.simplifyCondition_canonical, no.simplifyCondition_canonical]
    exact chooseCondition_canonical ..
  | array .. | arrow .. | bigInt .. | boolean .. | call .. | classExpr .. | dot .. | function ..
  | identifier .. | importIdentifier .. | importMeta _ | index .. | inlinedEnum .. | missing _
  | new .. | null _ | number .. | object .. | regExp .. | spread .. | string .. | template ..
  | this _ | undefined _ => rfl

end EcmaPrune.Expr
