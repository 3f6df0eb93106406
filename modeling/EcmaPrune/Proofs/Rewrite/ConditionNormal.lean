import EcmaPrune.Proofs.Rewrite.ConditionParts

/-! Conditions that no rule rewrites any more, and that rewriting once arrives at one. -/

namespace EcmaPrune.Expr

/-- Whether an expression is no inlined constant, or one that is a literal in the end. -/
def inlinesLiteral : Expr → Bool
  | inlinedEnum _ value _ => value.isPrimitiveLiteral
  | _ => true

/-- Rewriting conditions inlines nothing. -/
theorem conditionSafe_inlinesLiteral : ConditionSafe fun e => e.inlinesLiteral := by
  constructor <;> intros <;> rfl

/-- A negation. -/
def isNegation : Expr → Bool
  | unary _ op _ _ => op == .logicalNot
  | _ => false

/-- What is taken as a condition as it stands, whatever is inside. -/
def isPlainCondition : Expr → Bool
  | unary _ op _ _ => op != .logicalNot
  | binary _ op left right => !op.isAndOr && !asksForZero op left right
  | conditional .. => false
  | _ => true

/-- A condition that no rule applies to, nor to any condition in it. -/
inductive IsNormalCondition : Expr → Prop
  | plain {e : Expr} (isPlain : e.isPlainCondition) : IsNormalCondition e
  /-- A negation is left of what has no shorter one, and stands where its operand does. -/
  | not {value : Expr} (normal : IsNormalCondition value) (single : value.isNegation = false)
    (noShorter : value.negate? = none) : IsNormalCondition (unary value.loc .logicalNot value false)
  /-- The right operand of a logical operation decides something, or does something. -/
  | logical {loc : Loc} {op : Operator} {left right : Expr} (isAndOr : op.isAndOr)
    (leftNormal : IsNormalCondition left) (rightNormal : IsNormalCondition right)
    (decides : right.pureTruth? ≠ some (op == .logicalAnd)) :
    IsNormalCondition (binary loc op left right)
  | conditional {loc : Loc} {test yes no : Expr} (testNormal : IsNormalCondition test)
    (yesNormal : IsNormalCondition yes) (noNormal : IsNormalCondition no)
    (yesOpen : yes.pureTruth? = none) (noOpen : no.pureTruth? = none) :
    IsNormalCondition (conditional loc test yes no)

/-- A comparison with zero is none of the connectives. -/
theorem asksForZero_eq_false {op : Operator} (isAndOr : op.isAndOr) (left right : Expr) :
    asksForZero op left right = false := by
  cases op with
  | logicalAnd | logicalOr => rfl
  | _ => cases isAndOr

/-- Turning a comparison round does not change what it asks for. -/
theorem asksForZero_negated {op negated : Operator} (opposed : op.negatedEquality = some negated)
    (left right : Expr) : asksForZero negated left right = asksForZero op left right := by
  cases op <;> cases opposed <;> rfl

/-- Nothing but its negation is a negated condition if it is no negation and has no shorter one. -/
theorem negateCondition_of_stuck {e : Expr} (single : e.isNegation = false)
    (noShorter : e.negate? = none) : e.negateCondition = unary e.loc .logicalNot e false := by
  unfold negateCondition
  split
  · cases single
  · rw [negate, noShorter]
    rfl

/-- Rewriting changes nothing about a normal condition. -/
theorem simplifyCondition_of_isNormalCondition {e : Expr} (normal : e.IsNormalCondition) :
    e.simplifyCondition = e := by
  induction normal with
  | @plain e isPlain =>
    -- No rule is for such an expression as a whole.
    cases e <;> simp_all [isPlainCondition, simplifyCondition]
  | not _ single noShorter ih =>
    -- The operand is negated once more, which builds the negation that was there.
    rw [simplifyCondition, if_pos rfl, ih, negateCondition_of_stuck single noShorter]
  | @logical loc op left right isAndOr _ _ decides leftIh rightIh =>
    -- The right operand is not one of those that are left out.
    rw [simplifyCondition, asksForZero_eq_false isAndOr, if_neg Bool.false_ne_true, if_pos isAndOr,
      leftIh, rightIh, logicalCondition_eq, if_neg decides]
  | conditional _ _ _ yesOpen noOpen testIh yesIh noIh =>
    -- Neither branch is known, so the choice is not written as a logical operation.
    rw [simplifyCondition, testIh, yesIh, noIh, chooseCondition, yesOpen, noOpen]

namespace IsNormalCondition

theorem comma (loc : Loc) (left right : Expr) :
    IsNormalCondition (binary loc .comma left right) :=
  .plain rfl

/-- The negation of a literal is a literal, if there is one. -/
theorem negate?_literal {e negated : Expr} (literal : e.isPrimitiveLiteral)
    (found : e.negate? = some negated) : negated.IsNormalCondition := by
  induction e using induction_on_parts with
  | step e ih =>
    cases e with
    | null | undefined | boolean | number | string => cases found; exact .plain rfl
    | bigInt =>
      obtain ⟨zero, _, rfl⟩ := Option.map_eq_some_iff.mp found
      exact .plain rfl
    | inlinedEnum loc value comment => exact ih value (by simp [parts]) literal found
    | _ => cases literal

/-- The shorter negation of a normal condition is normal, if it is no negation. -/
theorem negate? {e negated : Expr} (normal : e.IsNormalCondition) (single : e.isNegation = false)
    (inlined : e.inlinesLiteral) (found : e.negate? = some negated) :
    negated.IsNormalCondition := by
  cases e with
  | null | undefined | boolean | number | string | function | arrow | regExp =>
    cases found
    exact .plain rfl
  | bigInt =>
    obtain ⟨zero, _, rfl⟩ := Option.map_eq_some_iff.mp found
    exact .plain rfl
  -- Only here it matters what is inlined, as the wrapper is dropped.
  | inlinedEnum loc value comment => exact negate?_literal inlined found
  | unary loc op value fromIdentifier =>
    cases op with
    | logicalNot => cases single
    | _ => cases found
  | binary loc op left right =>
    rw [Expr.negate?] at found
    split at found
    · rename_i opposite opposed
      cases found
      -- What does not ask for zero does not ask for it turned round either.
      have plain : (binary loc op left right).isPlainCondition := by
        cases normal with
        | plain isPlain => exact isPlain
        | logical isAndOr => cases op <;> cases opposed <;> cases isAndOr
      have notAndOr : opposite.isAndOr = false := by cases op <;> cases opposed <;> rfl
      refine .plain ?_
      rw [isPlainCondition, notAndOr, asksForZero_negated opposed]
      simpa [isPlainCondition] using (Bool.and_eq_true_iff.mp plain).2
    · split at found
      · cases found
        exact comma _ _ _
      · cases found
  | _ => cases found

theorem negateCondition {e : Expr} (normal : e.IsNormalCondition) (inlined : e.inlinesLiteral) :
    e.negateCondition.IsNormalCondition := by
  cases single : e.isNegation with
  | true =>
    -- Of a negation the operand is left, which is normal itself.
    cases normal with
    | plain isPlain => cases e <;> simp_all [isNegation, isPlainCondition]
    | not inner => exact inner
    | logical | conditional => cases single
  | false =>
    cases found : e.negate? with
    | none =>
      rw [negateCondition_of_stuck single found]
      exact .not normal single found
    | some negated =>
      have shorter : e.negateCondition = negated := by
        unfold Expr.negateCondition
        split
        · cases single
        · rw [negate, found]
          rfl
      rw [shorter]
      exact normal.negate? single inlined found

theorem logicalCondition {loc : Loc} {op : Operator} (isAndOr : op.isAndOr) {left right : Expr}
    (leftNormal : left.IsNormalCondition) (rightNormal : right.IsNormalCondition) :
    (logicalCondition loc op left right).IsNormalCondition := by
  rw [logicalCondition_eq]
  split
  · exact leftNormal
  · exact .logical isAndOr leftNormal rightNormal ‹_›

theorem rewriteLast {f : Expr → Expr}
    (kept : ∀ e : Expr, e.IsNormalCondition → (f e).IsNormalCondition) {e : Expr}
    (normal : e.IsNormalCondition) : (rewriteLast f e).IsNormalCondition := by
  -- Nothing is asked of the operands of a sequence.
  fun_cases Expr.rewriteLast f e with
  | case1 loc left right => exact comma _ _ _
  | case2 => exact kept e normal

theorem joinOnto {op : Operator} (isAndOr : op.isAndOr) {b chain : Expr}
    (bNormal : b.IsNormalCondition) (chainNormal : chain.IsNormalCondition) :
    (joinOnto Expr.logicalCondition op b chain).IsNormalCondition := by
  -- The induction follows the second expression, which loses an operand at a time.
  fun_induction Expr.joinOnto Expr.logicalCondition op b chain with
  | case1 loc left right chain leftIh rightIh =>
    cases bNormal with
    | plain isPlain => simp [isPlainCondition, isAndOr] at isPlain
    | logical _ leftNormal rightNormal _ =>
      -- The left operand of the second chain joins the last operand of the first.
      exact rightIh rightNormal (rewriteLast (fun last => leftIh last leftNormal) chainNormal)
  | case2 => exact logicalCondition isAndOr chainNormal bNormal
  | case3 => exact logicalCondition isAndOr chainNormal bNormal

theorem joinBy {op : Operator} (isAndOr : op.isAndOr) {a b : Expr} (aNormal : a.IsNormalCondition)
    (bNormal : b.IsNormalCondition) :
    (joinBy Expr.logicalCondition op a b).IsNormalCondition :=
  rewriteLast (fun _ lastNormal => joinOnto isAndOr bNormal lastNormal) aNormal

theorem chooseCondition {loc : Loc} {test yes no : Expr} (testNormal : test.IsNormalCondition)
    (inlined : test.inlinesLiteral) (yesNormal : yes.IsNormalCondition)
    (noNormal : no.IsNormalCondition) :
    (chooseCondition loc test yes no).IsNormalCondition := by
  have negatedNormal := testNormal.negateCondition inlined
  unfold Expr.chooseCondition
  split
  -- A branch that is known leaves the test or its negation, joined with the other branch.
  · exact joinBy rfl testNormal noNormal
  · exact joinBy rfl negatedNormal noNormal
  · exact joinBy rfl negatedNormal yesNormal
  · exact joinBy rfl testNormal yesNormal
  · exact .conditional testNormal yesNormal noNormal ‹_› ‹_›

end IsNormalCondition

/-- Rewriting a condition leaves a normal one, if the constants inlined in it are literals. -/
theorem isNormalCondition_simplifyCondition {e : Expr}
    (literals : e.Throughout fun part => part.inlinesLiteral) :
    e.simplifyCondition.IsNormalCondition := by
  -- A condition that is rewritten and then negated inlines only literals as well.
  have rewritten : ∀ part : Expr, part.Throughout (fun part => part.inlinesLiteral) →
      part.simplifyCondition.inlinesLiteral := fun part all =>
    (throughout_simplifyCondition conditionSafe_inlinesLiteral all).here
  fun_induction simplifyCondition e with
  | case1 loc value fromIdentifier ih =>
    have valueAll := (throughout_unary.mp literals).2
    exact (ih valueAll).negateCondition (rewritten value valueAll)
  | case3 loc op left right asks isInequality ih => exact ih (throughout_binary.mp literals).2.1
  | case4 loc op left right asks isEquality ih =>
    have leftAll := (throughout_binary.mp literals).2.1
    exact (ih leftAll).negateCondition (rewritten left leftAll)
  | case5 loc op left right asks isAndOr leftIh rightIh =>
    obtain ⟨_, leftAll, rightAll⟩ := throughout_binary.mp literals
    exact .logicalCondition isAndOr (leftIh leftAll) (rightIh rightAll)
  | case7 loc test yes no testIh yesIh noIh =>
    obtain ⟨_, testAll, yesAll, noAll⟩ := throughout_conditional.mp literals
    exact .chooseCondition (testIh testAll) (rewritten test testAll) (yesIh yesAll) (noIh noAll)
  | case2 loc op value fromIdentifier notNegation =>
    exact .plain (by simpa [isPlainCondition] using notNegation)
  | case6 loc op left right asks notAndOr =>
    exact .plain (by simp_all [isPlainCondition])
  | case8 e notUnary notBinary notConditional =>
    refine .plain ?_
    cases e with
    | unary => exact absurd rfl (notUnary _ _ _ _)
    | binary => exact absurd rfl (notBinary _ _ _ _)
    | conditional => exact absurd rfl (notConditional _ _ _ _)
    | _ => rfl

/--
Rewriting a condition a second time changes nothing, not even a position.

Constants that are inlined must be literals: the negation of anything else that is inlined may be a
condition that can be rewritten itself.
-/
theorem simplifyCondition_idempotent {e : Expr}
    (literals : e.Throughout fun part => part.inlinesLiteral) :
    e.simplifyCondition.simplifyCondition = e.simplifyCondition :=
  simplifyCondition_of_isNormalCondition (isNormalCondition_simplifyCondition literals)

/-- A choice between an inlined true constant and something else becomes an alternative for good. -/
theorem simplifyCondition_idempotent_choice :
    let first := identifier default default false false
    let second := identifier default ⟨1⟩ false false
    let twice := unary default .logicalNot (unary default .logicalNot first false) false
    let e := conditional default twice (inlinedEnum default (boolean default true) "On") second
    e.Throughout (fun part => part.inlinesLiteral) ∧
      e.simplifyCondition = binary default .logicalOr first second ∧
      e.simplifyCondition.simplifyCondition = e.simplifyCondition := by
  intro first second twice e
  have literals : e.Throughout fun part => part.inlinesLiteral := by
    refine throughout_conditional.mpr ⟨rfl, ?_, ?_, throughout_of_parts_eq_nil rfl rfl⟩
    · exact throughout_unary.mpr
        ⟨rfl, throughout_unary.mpr ⟨rfl, throughout_of_parts_eq_nil rfl rfl⟩⟩
    · exact .intro rfl
        (List.forall_mem_singleton.mpr (throughout_of_parts_eq_nil rfl rfl))
  exact ⟨literals, rfl, simplifyCondition_idempotent literals⟩

end EcmaPrune.Expr
