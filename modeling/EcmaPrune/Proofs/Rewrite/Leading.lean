import EcmaPrune.Proofs.Analysis.Verdicts
import EcmaPrune.Proofs.Rewrite.DiscardRemovable
import EcmaPrune.Proofs.Rewrite.Join

/-!
The names that a condition reads first, before any test of a type.

Rewriting a condition moves no name there that was not there before.
-/

namespace EcmaPrune.Expr

/-- A comparison of the type of a name that may show the name to be there. -/
def isGuard (e : Expr) : Bool :=
  match e.typeofTest? with
  | some test => test.op.isEquality || test.op.isRelational
  | none => false

/-- What guards a name compares a type with a text. -/
theorem isGuard_of_isGuardedBy {value guard : Expr} {onYes : Bool} {unbound : Ref → Bool}
    (guarded : value.isGuardedBy guard onYes unbound) : guard.isGuard := by
  unfold isGuardedBy at guarded
  split at guarded
  · rename_i ref test named tested
    simp only [Bool.and_eq_true] at guarded
    have proves := guarded.2
    rw [isGuard, tested]
    -- Only comparisons for equality and of order prove anything.
    rcases test with ⟨op, _, _, _⟩
    cases op with
    | equality | inequality | strictEquality | strictInequality | lessThan | lessThanOrEqual
    | greaterThan | greaterThanOrEqual => rfl
    | _ => simp [TypeofTest.provesDefined] at proves
  · cases guarded

/-- A guard is a comparison, with a text or a type on its right. -/
theorem exists_of_isGuard {e : Expr} (guard : e.isGuard) :
    ∃ loc op left right, e = binary loc op left right ∧ (op.isEquality || op.isRelational) ∧
      right.isZeroLiteral = false := by
  unfold isGuard at guard
  cases tested : e.typeofTest? with
  | none => simp [tested] at guard
  | some test =>
    rw [tested] at guard
    unfold typeofTest? at tested
    split at tested
    · rename_i loc op _ text right
      obtain ⟨ref, found, rfl⟩ := Option.map_eq_some_iff.mp tested
      refine ⟨loc, op, _, right, rfl, guard, ?_⟩
      cases right with
      | unary => rfl
      | _ => cases found
    · rename_i loc op left _ text _
      obtain ⟨ref, found, rfl⟩ := Option.map_eq_some_iff.mp tested
      exact ⟨loc, op, left, _, rfl, guard, rfl⟩
    · cases tested

section

variable {e : Expr} (guard : e.isGuard)
include guard

theorem isSequence_of_isGuard : e.isSequence = false := by
  obtain ⟨loc, op, left, right, rfl, compares, _⟩ := exists_of_isGuard guard
  cases op with
  | comma => cases compares
  | _ => rfl

/-- A guard stays as it is where it is a condition. -/
theorem simplifyCondition_of_isGuard : e.simplifyCondition = e := by
  obtain ⟨loc, op, left, right, rfl, compares, notZero⟩ := exists_of_isGuard guard
  -- It is no connective, and what it compares with is no zero.
  have noAndOr : op.isAndOr = false := by
    cases op with
    | logicalOr | logicalAnd => cases compares
    | _ => rfl
  rw [simplifyCondition, if_neg (by simp [asksForZero, notZero]), if_neg (by simp [noAndOr])]

end

/-- A connective compares nothing. -/
theorem isGuard_connective {op : Operator} (connective : op = .comma ∨ op.isAndOr) (loc : Loc)
    (left right : Expr) : (binary loc op left right).isGuard = false := by
  refine Bool.eq_false_iff.mpr fun guard => ?_
  obtain ⟨_, _, _, _, same, compares, _⟩ := exists_of_isGuard guard
  cases same
  rcases connective with rfl | isAndOr
  · cases compares
  · cases op with
    | logicalOr | logicalAnd => cases compares
    | _ => cases isAndOr

/--
Reads a name first, but for what passes.

The name stands at the front, under negations and wrappers, or behind operands that pass.
-/
inductive Leads (passes : Expr → Bool) (name : Expr) : Expr → Prop
  | here (isName : name.isIdentifier) : Leads passes name name
  | inlinedEnum {loc : Loc} {value : Expr} {comment : String} :
    Leads passes name value → Leads passes name (inlinedEnum loc value comment)
  | not {loc : Loc} {value : Expr} {fromIdentifier : Bool} :
    Leads passes name value → Leads passes name (unary loc .logicalNot value fromIdentifier)
  | left {loc : Loc} {op : Operator} {left right : Expr} :
    Leads passes name left → Leads passes name (binary loc op left right)
  | right {loc : Loc} {op : Operator} {left right : Expr} :
    passes left → Leads passes name right → Leads passes name (binary loc op left right)
  | test {loc : Loc} {test yes no : Expr} :
    Leads passes name test → Leads passes name (conditional loc test yes no)
  | yes {loc : Loc} {test yes no : Expr} :
    passes test → Leads passes name yes → Leads passes name (conditional loc test yes no)
  | no {loc : Loc} {test yes no : Expr} :
    passes test → Leads passes name no → Leads passes name (conditional loc test yes no)

/-- Holds no guard among the operands of its connectives. -/
def isUnguarding : Expr → Bool
  | inlinedEnum _ value _ => value.isUnguarding
  | unary _ op value _ => op != .logicalNot || value.isUnguarding
  | binary loc op left right =>
    !(binary loc op left right).isGuard && left.isUnguarding && right.isUnguarding
  | _ => true

@[simp] theorem isUnguarding_inlinedEnum (loc : Loc) (value : Expr) (comment : String) :
    (inlinedEnum loc value comment).isUnguarding = value.isUnguarding := rfl

@[simp] theorem isUnguarding_unary (loc : Loc) (op : Operator) (value : Expr)
    (fromIdentifier : Bool) : (unary loc op value fromIdentifier).isUnguarding =
      (op != .logicalNot || value.isUnguarding) := rfl

@[simp] theorem isUnguarding_binary (loc : Loc) (op : Operator) (left right : Expr) :
    (binary loc op left right).isUnguarding =
      (!(binary loc op left right).isGuard && left.isUnguarding && right.isUnguarding) := rfl

theorem isGuard_of_isUnguarding {e : Expr} (unguarding : e.isUnguarding) : e.isGuard = false := by
  cases e with
  | binary loc op left right =>
    simp only [isUnguarding_binary, Bool.and_eq_true, Bool.not_eq_true'] at unguarding
    exact unguarding.1.1
  | _ => rfl

/-- What is known to be true or false and does nothing can be removed, and tests no type. -/
theorem quiet_of_truth? (unbound : Ref → Bool) {e : Expr} {value : Bool}
    (known : e.truth? = some (.pure value)) : e.isRemovable unbound ∧ e.isUnguarding := by
  refine ⟨isRemovable_of_truth? unbound known, ?_⟩
  fun_induction truth? e generalizing value with
  | case1 loc inner comment ih => exact ih known
  | case16 loc inner isBare ih =>
    obtain ⟨verdict, found, negated⟩ := Option.map_eq_some_iff.mp known
    rcases verdict with ⟨truth, hasEffects⟩
    cases hasEffects with
    | false => exact ih found
    | true => cases negated
  | _ =>
    -- Left are literals, functions and types asked for, which are no comparisons, and what is
    -- taken to do something.
    simp_all [isUnguarding, Verdict.pure, Verdict.effectful, Verdict.withEffects]

theorem quiet_of_pureTruth? (unbound : Ref → Bool) {e : Expr} (known : e.pureTruth?.isSome) :
    e.isRemovable unbound ∧ e.isUnguarding := by
  obtain ⟨value, found⟩ := Option.isSome_iff_exists.mp known
  unfold pureTruth? at found
  split at found
  · rename_i truth
    exact quiet_of_truth? unbound truth
  · cases found

/-- A test of a type reads the same whatever comparison it is written with. -/
theorem typeofTest?_withOp {loc : Loc} (op op' : Operator) (left right : Expr) :
    (binary loc op' left right).typeofTest? =
      (binary loc op left right).typeofTest?.map fun test => { test with op := op' } := by
  -- Where the text stands on the left, it is the right side that asks for the type.
  cases left with
  | string => simp [typeofTest?, Function.comp_def]
  | _ =>
    cases right with
    | string => simp [typeofTest?, Function.comp_def]
    | _ => rfl

/-- A comparison that is turned round guards no less and no more names. -/
theorem isGuard_negated {op negated : Operator} (opposed : op.negatedEquality = some negated)
    {loc : Loc} {left right : Expr} :
    (binary loc negated left right).isGuard = (binary loc op left right).isGuard := by
  have compares : (negated.isEquality || negated.isRelational) =
      (op.isEquality || op.isRelational) := by
    cases op <;> cases opposed <;> rfl
  unfold isGuard
  rw [typeofTest?_withOp op negated, typeofTest?_withOp op op]
  cases (binary loc op left right).typeofTest? with
  | none => rfl
  | some test => exact compares

/-- Negating turns comparisons round, but makes no guard of anything and hides none. -/
theorem isUnguarding_of_negate? {e negated : Expr} (found : e.negate? = some negated)
    (unguarding : negated.isUnguarding) : e.isUnguarding := by
  fun_induction negate? e generalizing negated with
  | case10 loc value comment ih => exact ih found unguarding
  | case11 => cases found; exact unguarding
  | case13 loc op left right other opposed =>
    cases found
    rwa [isUnguarding_binary, isGuard_negated opposed] at unguarding
  | case14 loc op left right plain isComma ih =>
    cases found
    obtain rfl : op = .comma := by simpa using isComma
    simp only [isUnguarding_binary, Bool.and_eq_true] at unguarding ⊢
    refine ⟨⟨by rw [isGuard_connective (.inl rfl)]; rfl, unguarding.1.2⟩, ?_⟩
    -- Only the last operand is negated.
    cases inner : right.negate? with
    | none => simpa [inner] using unguarding.2
    | some shorter => exact ih inner (by simpa [inner] using unguarding.2)
  | case12 | case15 | case16 => cases found
  | _ => rfl

theorem isUnguarding_of_negateCondition {e : Expr} (unguarding : e.negateCondition.isUnguarding) :
    e.isUnguarding := by
  unfold negateCondition at unguarding
  split at unguarding
  · exact unguarding
  · unfold negate at unguarding
    cases found : e.negate? with
    | none => simpa [found] using unguarding
    | some negated => exact isUnguarding_of_negate? found (by simpa [found] using unguarding)

/-- Of a logical operation on conditions both operands are looked at. -/
theorem isUnguarding_of_logicalCondition {loc : Loc} {op : Operator} {left right : Expr}
    (unguarding : (logicalCondition loc op left right).isUnguarding) :
    left.isUnguarding ∧ right.isUnguarding := by
  unfold logicalCondition at unguarding
  split at unguarding
  · rename_i known
    -- A right operand that is dropped tests nothing.
    split at unguarding
    · exact ⟨unguarding, (quiet_of_truth? (fun _ => true) known).2⟩
    · simp only [isUnguarding_binary, Bool.and_eq_true] at unguarding
      exact ⟨unguarding.1.2, unguarding.2⟩
  · simp only [isUnguarding_binary, Bool.and_eq_true] at unguarding
    exact ⟨unguarding.1.2, unguarding.2⟩

theorem isUnguarding_of_rewriteLast {f : Expr → Expr} {condition : Prop}
    (inner : ∀ e, (f e).isUnguarding → e.isUnguarding ∧ condition) {e : Expr}
    (unguarding : (rewriteLast f e).isUnguarding) : e.isUnguarding ∧ condition := by
  fun_induction rewriteLast f e with
  | case1 loc left right ih =>
    simp only [isUnguarding_binary, Bool.and_eq_true] at unguarding ⊢
    obtain ⟨rightUnguarding, holds⟩ := ih unguarding.2
    exact ⟨⟨⟨by rw [isGuard_connective (.inl rfl)]; rfl, unguarding.1.2⟩, rightUnguarding⟩, holds⟩
  | case2 e => exact inner e unguarding

theorem isUnguarding_of_joinOnto {op : Operator} (isAndOr : op.isAndOr) {b chain : Expr}
    (unguarding : (joinOnto logicalCondition op b chain).isUnguarding) :
    chain.isUnguarding ∧ b.isUnguarding := by
  fun_induction joinOnto logicalCondition op b chain with
  -- The left part is strung onto the chain first, and then the right part behind both.
  | case1 loc left right chain leftIh rightIh =>
    obtain ⟨chainUnguarding, rightUnguarding⟩ := rightIh unguarding
    obtain ⟨firstUnguarding, leftUnguarding⟩ :=
      isUnguarding_of_rewriteLast (fun last => leftIh last) chainUnguarding
    refine ⟨firstUnguarding, ?_⟩
    simp only [isUnguarding_binary, Bool.and_eq_true]
    exact ⟨⟨by rw [isGuard_connective (.inr isAndOr)]; rfl, leftUnguarding⟩, rightUnguarding⟩
  | case2 => exact isUnguarding_of_logicalCondition unguarding
  | case3 => exact isUnguarding_of_logicalCondition unguarding

section

variable {name : Expr}

/-- What leads a removable expression, behind no guard, can be removed. -/
theorem Leads.isRemovable {unbound : Ref → Bool} {passes : Expr → Bool}
    (unguarded : ∀ e, passes e → e.isGuard = false) {e : Expr} (leads : Leads passes name e)
    (removable : e.isRemovable unbound) :
    name.isRemovable unbound := by
  have notGuarded : ∀ value guard onYes, passes guard →
      isGuardedBy value guard onYes unbound = false := by
    intro value guard onYes passing
    refine Bool.eq_false_iff.mpr fun guarded => ?_
    have := isGuard_of_isGuardedBy guarded
    rw [unguarded guard passing] at this
    cases this
  -- Behind what passes, nothing is spared, so each operand on the way can be removed itself.
  induction leads with
  | here => exact removable
  | inlinedEnum _ ih => exact ih removable
  | not _ ih => exact ih removable
  | @left loc op left right _ ih =>
    refine ih ?_
    cases op with
    | strictEquality | strictInequality | comma | nullishCoalescing | logicalOr | logicalAnd
    | equality | inequality | lessThan | greaterThan | lessThanOrEqual | greaterThanOrEqual =>
      simp only [Expr.isRemovable, Bool.and_eq_true] at removable
      simp only [removable]
    | _ => cases removable
  | @right loc op left right passing _ ih =>
    refine ih ?_
    cases op with
    | strictEquality | strictInequality | comma | nullishCoalescing | logicalOr | logicalAnd
    | equality | inequality | lessThan | greaterThan | lessThanOrEqual | greaterThanOrEqual =>
      simp only [Expr.isRemovable, Bool.and_eq_true, notGuarded _ _ _ passing, Bool.or_false]
        at removable
      simp only [removable]
    | _ => cases removable
  | test _ ih =>
    simp only [Expr.isRemovable, Bool.and_eq_true] at removable
    exact ih removable.1.1
  | yes passing _ ih =>
    simp only [Expr.isRemovable, Bool.and_eq_true, notGuarded _ _ _ passing, Bool.or_false]
      at removable
    exact ih removable.1.2
  | no passing _ ih =>
    simp only [Expr.isRemovable, Bool.and_eq_true, notGuarded _ _ _ passing, Bool.or_false]
      at removable
    exact ih removable.2

theorem Leads.mono {passes passes' : Expr → Bool} (more : ∀ e, passes e → passes' e) {e : Expr}
    (leads : Leads passes name e) : Leads passes' name e := by
  induction leads with
  | here isName => exact .here isName
  | inlinedEnum _ ih => exact .inlinedEnum ih
  | not _ ih => exact .not ih
  | left _ ih => exact .left ih
  | right passing _ ih => exact .right (more _ passing) ih
  | test _ ih => exact .test ih
  | yes passing _ ih => exact .yes (more _ passing) ih
  | no passing _ ih => exact .no (more _ passing) ih

/-- Negating brings nothing to the front. -/
theorem Leads.of_negate? {e negated : Expr}
    (found : e.negate? = some negated) (leads : Leads isUnguarding name negated) :
    Leads isUnguarding name e := by
  fun_induction Expr.negate? e generalizing negated with
  | case5 loc literal =>
    obtain ⟨zero, _, rfl⟩ := Option.map_eq_some_iff.mp found
    cases leads with
    | here isName => cases isName
  | case10 loc value comment ih => exact .inlinedEnum (ih found leads)
  | case11 => cases found; exact .not leads
  | case13 loc op left right other opposed =>
    cases found
    cases leads with
    | here isName => cases isName
    | left inner => exact .left inner
    | right passing inner => exact .right passing inner
  | case14 loc op left right plain isComma ih =>
    cases found
    cases leads with
    | here isName => cases isName
    | left inner => exact .left inner
    | right passing inner =>
      refine .right passing ?_
      cases negation : right.negate? with
      | none =>
        rw [negation] at inner
        cases inner with
        | here isName => cases isName
        | not inside => exact inside
      | some shorter =>
        rw [negation] at inner
        exact ih negation inner
  | case12 | case15 | case16 => cases found
  | _ =>
    cases found
    cases leads with
    | here isName => cases isName

theorem Leads.of_negateCondition {e : Expr}
    (leads : Leads isUnguarding name e.negateCondition) : Leads isUnguarding name e := by
  unfold Expr.negateCondition at leads
  split at leads
  · exact .not leads
  · unfold negate at leads
    cases found : e.negate? with
    | none =>
      rw [found] at leads
      cases leads with
      | here isName => cases isName
      | not inside => exact inside
    | some negated =>
      rw [found] at leads
      exact of_negate? found leads

theorem Leads.of_logicalCondition {loc : Loc} {op : Operator}
    {left right : Expr} (leads : Leads isUnguarding name (logicalCondition loc op left right)) :
    Leads isUnguarding name (binary loc op left right) := by
  unfold Expr.logicalCondition at leads
  split at leads
  · split at leads
    · exact .left leads
    · exact leads
  · exact leads

/-- What leads a sequence with a rewritten end leads the sequence, or what its end leads to. -/
theorem Leads.of_rewriteLast {f : Expr → Expr} {next : Expr}
    (inner : ∀ last, Leads isUnguarding name (f last) →
      Leads isUnguarding name last ∨ last.isUnguarding ∧ Leads isUnguarding name next)
    {e : Expr} (leads : Leads isUnguarding name (rewriteLast f e)) :
    Leads isUnguarding name e ∨ e.isUnguarding ∧ Leads isUnguarding name next := by
  fun_induction Expr.rewriteLast f e with
  | case1 loc left right ih =>
    cases leads with
    | here isName => cases isName
    | left onLeft => exact .inl (.left onLeft)
    | right passing onRight =>
      rcases ih onRight with already | ⟨unguarding, onNext⟩
      · exact .inl (.right passing already)
      · refine .inr ⟨?_, onNext⟩
        simp [isGuard_connective (.inl rfl), passing, unguarding]
  | case2 e => exact inner e leads

theorem Leads.of_joinOnto {op : Operator} (isAndOr : op.isAndOr) {b chain : Expr}
    (leads : Leads isUnguarding name (joinOnto logicalCondition op b chain)) :
    Leads isUnguarding name chain ∨ chain.isUnguarding ∧ Leads isUnguarding name b := by
  fun_induction Expr.joinOnto logicalCondition op b chain with
  | case1 loc left right chain leftIh rightIh =>
    -- Either the right part has brought the name to the front, or it was there before.
    rcases rightIh leads with onChain | ⟨unguarding, onRight⟩
    · rcases of_rewriteLast (fun last => leftIh last) onChain with already | ⟨passing, onLeft⟩
      · exact .inl already
      · exact .inr ⟨passing, .left onLeft⟩
    · obtain ⟨chainUnguarding, leftUnguarding⟩ :=
        isUnguarding_of_rewriteLast (fun last => isUnguarding_of_joinOnto isAndOr) unguarding
      exact .inr ⟨chainUnguarding, .right leftUnguarding onRight⟩
  | _ =>
    cases of_logicalCondition leads with
    | here isName => cases isName
    | left onChain => exact .inl onChain
    | right passing onLast => exact .inr ⟨passing, onLast⟩

theorem Leads.of_joinBy {op : Operator} (isAndOr : op.isAndOr) {a b : Expr}
    (leads : Leads isUnguarding name (joinBy logicalCondition op a b)) :
    Leads isUnguarding name a ∨ a.isUnguarding ∧ Leads isUnguarding name b :=
  of_rewriteLast (fun _ => of_joinOnto isAndOr) leads

/-- What leads a choice leads the test, or a branch behind a test that guards nothing. -/
theorem Leads.of_chooseCondition {loc : Loc} {test yes no : Expr}
    (leads : Leads isUnguarding name (chooseCondition loc test yes no)) :
    Leads isUnguarding name (conditional loc test yes no) := by
  have plain : ∀ {op branch}, op.isAndOr →
      Leads isUnguarding name (joinBy logicalCondition op test branch) →
      Leads isUnguarding name test ∨ test.isUnguarding ∧ Leads isUnguarding name branch :=
    fun isAndOr => of_joinBy isAndOr
  have negated : ∀ {op branch}, op.isAndOr →
      Leads isUnguarding name (joinBy logicalCondition op test.negateCondition branch) →
      Leads isUnguarding name test ∨ test.isUnguarding ∧ Leads isUnguarding name branch := by
    intro op branch isAndOr leads
    rcases of_joinBy isAndOr leads with onTest | ⟨passing, onBranch⟩
    · exact .inl (of_negateCondition onTest)
    · exact .inr ⟨isUnguarding_of_negateCondition passing, onBranch⟩
  unfold Expr.chooseCondition at leads
  split at leads
  · rcases plain rfl leads with onTest | ⟨passing, onNo⟩
    · exact .test onTest
    · exact .no passing onNo
  · rcases negated rfl leads with onTest | ⟨passing, onNo⟩
    · exact .test onTest
    · exact .no passing onNo
  · rcases negated rfl leads with onTest | ⟨passing, onYes⟩
    · exact .test onTest
    · exact .yes passing onYes
  · rcases plain rfl leads with onTest | ⟨passing, onYes⟩
    · exact .test onTest
    · exact .yes passing onYes
  · exact leads

/-- A name that leads a rewritten condition led the condition before, behind no guard. -/
theorem Leads.of_simplifyCondition {e : Expr}
    (leads : Leads isUnguarding name e.simplifyCondition) : Leads (!·.isGuard) name e := by
  -- A guard stays as it is, so what is no guard afterwards was none before.
  have unguarded : ∀ {e : Expr}, e.simplifyCondition.isUnguarding → !e.isGuard := by
    intro e unguarding
    refine Bool.not_eq_true' _ ▸ Bool.eq_false_iff.mpr fun guard => ?_
    rw [simplifyCondition_of_isGuard guard] at unguarding
    simp [isGuard_of_isUnguarding unguarding] at guard
  fun_induction Expr.simplifyCondition e with
  | case1 loc value fromIdentifier ih => exact .not (ih (of_negateCondition leads))
  | case3 loc op left right asks isInequality ih => exact .left (ih leads)
  | case4 loc op left right asks isEquality ih =>
    exact .left (ih (of_negateCondition leads))
  | case5 loc op left right asks isAndOr leftIh rightIh =>
    cases of_logicalCondition leads with
    | here isName => cases isName
    | left onLeft => exact .left (leftIh onLeft)
    | right passing onRight => exact .right (unguarded passing) (rightIh onRight)
  | case7 loc test yes no testIh yesIh noIh =>
    cases of_chooseCondition leads with
    | here isName => cases isName
    | test onTest => exact .test (testIh onTest)
    | yes passing onYes => exact .yes (unguarded passing) (yesIh onYes)
    | no passing onNo => exact .no (unguarded passing) (noIh onNo)
  | case2 | case6 | case8 =>
    exact leads.mono fun _ unguarding => by simp [isGuard_of_isUnguarding unguarding]

/-- A connective guards nothing if no operand of its chain does. -/
theorem isUnguarding_of_leaves {op : Operator} (isAndOr : op.isAndOr) {e : Expr}
    (unguarding : ∀ leaf ∈ e.leaves op, leaf.isUnguarding) : e.isUnguarding := by
  fun_induction leaves op e with
  | case1 loc left right leftIh rightIh =>
    have onLeft := leftIh fun leaf member => unguarding leaf (List.mem_append_left _ member)
    have onRight := rightIh fun leaf member => unguarding leaf (List.mem_append_right _ member)
    simp [isGuard_connective (.inr isAndOr), onLeft, onRight]
  | case2 => exact unguarding _ (List.mem_singleton_self _)
  | case3 => exact unguarding _ (List.mem_singleton_self _)

/-- A name among the operands of a chain leads it, if it stands behind operands without guards. -/
theorem Leads.of_leaves {op : Operator} (isAndOr : op.isAndOr) (isName : name.isIdentifier)
    {e : Expr} {before after : List Expr} (split : e.leaves op = before ++ name :: after)
    (unguarding : ∀ operand ∈ before, operand.isUnguarding) : Leads isUnguarding name e := by
  fun_induction leaves op e generalizing before after with
  | case1 loc left right leftIh rightIh =>
    rcases List.append_eq_append_iff.mp split with ⟨inRight, rfl, onRight⟩ | ⟨inLeft, onLeft, rest⟩
    · -- The name stands in the right part, behind the whole left part.
      refine .right (isUnguarding_of_leaves isAndOr fun leaf member => ?_) (rightIh onRight ?_)
      · exact unguarding leaf (List.mem_append_left _ member)
      · exact fun operand member => unguarding operand (List.mem_append_right _ member)
    · cases inLeft with
      | nil =>
        -- The name is the first operand of the right part.
        rw [List.append_nil] at onLeft
        refine .right (isUnguarding_of_leaves isAndOr (onLeft ▸ unguarding)) ?_
        have first : (leaves op _) = [] ++ name :: after := rest.symm
        exact rightIh first fun _ member => by cases member
      | cons first others =>
        obtain ⟨rfl, _⟩ := List.cons.inj rest
        exact .left (leftIh onLeft unguarding)
  | case2 | case3 =>
    -- What is no chain is the name itself.
    cases before with
    | nil =>
      obtain ⟨rfl, _⟩ := List.cons.inj split
      exact .here isName
    | cons first others => simp at split

end

end EcmaPrune.Expr
