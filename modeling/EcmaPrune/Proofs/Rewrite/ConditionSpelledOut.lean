import EcmaPrune.Proofs.Analysis.SpelledOut

/-! Conditions are rewritten in the same way once the calls in them are spelled out. -/

namespace EcmaPrune.Expr

-- Expressions are spelled out one constructor at a time.
attribute [local simp] spelledOut

@[simp] theorem negate?_spelledOut (e : Expr) :
    e.spelledOut.negate? = e.negate?.map spelledOut := by
  induction e using induction_on_parts with
  | step e ih =>
    cases e with
    | call => exact apply_spelledOut_call negate? (fun _ => rfl) fun _ _ => rfl
    | bigInt loc literal => cases found : BigInt.isZero? literal <;> simp [negate?, found]
    | inlinedEnum loc value comment => exact ih value (by simp [parts])
    | unary loc op value fromIdentifier =>
      cases op with
      | logicalNot =>
        simp only [spelledOut, negate?, primitiveType_spelledOut]
        split <;> rfl
      | _ => rfl
    | binary loc op left right =>
      cases found : op.negatedEquality with
      | some negated => simp [negate?, found]
      | none =>
        simp only [spelledOut, negate?, found, ih right (by simp [parts]), loc_spelledOut]
        split
        -- What is negated of a sequence is its last operand.
        · cases right.negate? <;> simp
        · rfl
    | _ => rfl

@[simp] theorem negate_spelledOut (e : Expr) : e.spelledOut.negate = e.negate.spelledOut := by
  simp only [negate, negate?_spelledOut, loc_spelledOut]
  cases e.negate? <;> simp

@[simp] theorem negateCondition_spelledOut (e : Expr) :
    e.spelledOut.negateCondition = e.negateCondition.spelledOut := by
  have negated := negate_spelledOut e
  cases e with
  | unary loc op value fromIdentifier =>
    cases op with
    | logicalNot => rfl
    | _ => exact negated
  | call loc target args link isPure kind =>
    -- What stands in the place of a call is no negation either.
    refine Eq.trans ?_ negated
    rcases spelledOut_call_eq loc target args link isPure kind with ⟨_, same⟩ | ⟨_, _, same⟩ <;>
      rw [same] <;> rfl
  | _ => exact negated

theorem logicalCondition_spelledOut (loc : Loc) (op : Operator) (left right : Expr) :
    logicalCondition loc op left.spelledOut right.spelledOut =
      (logicalCondition loc op left right).spelledOut := by
  simp only [logicalCondition, truth?_spelledOut]
  split
  · split <;> simp
  · simp

/-- A rewriting of last operands that does not look at calls goes to the same operand. -/
theorem rewriteLast_spelledOut {f g : Expr → Expr}
    (commutes : ∀ e, g e.spelledOut = (f e).spelledOut) (e : Expr) :
    rewriteLast g e.spelledOut = (rewriteLast f e).spelledOut := by
  fun_induction rewriteLast f e with
  | case1 loc left right ih => simp [rewriteLast, ih]
  | case2 e notSequence =>
    rw [← commutes]
    cases e with
    | binary loc op left right =>
      cases op with
      | comma => exact absurd rfl (notSequence loc left right)
      | _ => rfl
    | call loc target args link isPure kind =>
      rcases spelledOut_call_eq loc target args link isPure kind with ⟨_, same⟩ | ⟨_, _, same⟩ <;>
        rw [same] <;> rfl
    | _ => rfl

section

variable {combine : Loc → Operator → Expr → Expr → Expr}
  (commutes : ∀ loc op left right,
    combine loc op left.spelledOut right.spelledOut = (combine loc op left right).spelledOut)
include commutes

theorem joinOnto_spelledOut (op : Operator) (b chain : Expr) :
    joinOnto combine op b.spelledOut chain.spelledOut =
      (joinOnto combine op b chain).spelledOut := by
  fun_induction joinOnto combine op b chain with
  | case1 loc left right chain ihLeft ihRight =>
    rw [spelledOut, joinOnto, if_pos rfl, rewriteLast_spelledOut (fun last => ihLeft last), ihRight]
  | case2 loc op' left right chain different =>
    rw [spelledOut, joinOnto, if_neg different, loc_spelledOut, ← commutes, spelledOut]
  | case3 last chain plain =>
    rw [← commutes]
    cases last with
    | binary loc op left right => exact absurd rfl (plain loc op left right)
    | call loc target args link isPure kind =>
      rcases spelledOut_call_eq loc target args link isPure kind with ⟨_, same⟩ | ⟨_, _, same⟩ <;>
        rw [same] <;> simp [veiled, joinOnto]
    | _ => simp [joinOnto]

theorem joinBy_spelledOut (op : Operator) (a b : Expr) :
    joinBy combine op a.spelledOut b.spelledOut = (joinBy combine op a b).spelledOut :=
  rewriteLast_spelledOut (joinOnto_spelledOut commutes op b) a

end

theorem chooseCondition_spelledOut (loc : Loc) (test yes no : Expr) :
    chooseCondition loc test.spelledOut yes.spelledOut no.spelledOut =
      (chooseCondition loc test yes no).spelledOut := by
  simp only [chooseCondition, pureTruth?_spelledOut, negateCondition_spelledOut,
    joinBy_spelledOut logicalCondition_spelledOut]
  split <;> simp

/-- Rewriting a condition does not look at what calls in it run. -/
@[simp] theorem simplifyCondition_spelledOut (e : Expr) :
    e.spelledOut.simplifyCondition = e.simplifyCondition.spelledOut := by
  induction e using induction_on_parts with
  | step e ih =>
    cases e with
    | call loc target args link isPure kind =>
      rcases spelledOut_call_eq loc target args link isPure kind with ⟨_, same⟩ | ⟨_, _, same⟩ <;>
        simp only [simplifyCondition, same, veiled]
    | unary loc op value fromIdentifier =>
      simp only [spelledOut, simplifyCondition, ih value (by simp [parts]),
        negateCondition_spelledOut]
      split <;> simp
    | binary loc op left right =>
      simp only [spelledOut, simplifyCondition, asksForZero_spelledOut, ih left (by simp [parts]),
        ih right (by simp [parts]), negateCondition_spelledOut]
      split
      · split <;> rfl
      · split
        · exact logicalCondition_spelledOut ..
        · simp
    | conditional loc test yes no =>
      simp only [spelledOut, simplifyCondition, ih test (by simp [parts]),
        ih yes (by simp [parts]), ih no (by simp [parts])]
      exact chooseCondition_spelledOut ..
    | _ => rfl

end EcmaPrune.Expr
