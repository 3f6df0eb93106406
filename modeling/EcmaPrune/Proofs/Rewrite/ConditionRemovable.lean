import EcmaPrune.Proofs.Rewrite.Leading

/-!
When an expression that can be removed can still be removed as a rewritten condition.

A name that may be absent can be removed only right behind the test of its type that guards it.
Rewriting a choice as a logical operation takes such names away from their guards in two ways: it
puts a negation before a comparison of order, which then guards nothing, and it strings the operands
of a branch onto the test, so that a name in it stands behind all that was joined before.
-/

namespace EcmaPrune

/-- It is the comparisons for equality that have an opposite. -/
theorem Operator.isSome_negatedEquality (op : Operator) :
    op.negatedEquality.isSome = op.isEquality := by
  cases op <;> rfl

namespace Expr

/-- A comparison of order. -/
def comparesOrder : Expr → Bool
  | binary _ op _ _ => op.isRelational
  | _ => false

/--
Whether a name loses its guard when a test and a branch are joined, possibly negating the test.

A branch that can be removed by itself loses the guards inside it, if joining takes it apart; any
other branch is a name that the test guards, which is lost on the negation of an order comparison.
-/
def joinLosesGuard (unbound : Ref → Bool) (op : Operator) (isNegated : Bool) (test branch : Expr) :
    Bool :=
  if branch.isRemovable unbound then (branch.leaves op).any (!·.isRemovable unbound)
  else isNegated && test.comparesOrder

/-- Whether a name loses its guard when a choice is written as a logical operation. -/
def chooseLosesGuard (unbound : Ref → Bool) (test yes no : Expr) : Bool :=
  match yes.pureTruth?, no.pureTruth? with
  | some true, _ => joinLosesGuard unbound .logicalOr false test no
  | some false, _ => joinLosesGuard unbound .logicalAnd true test no
  | none, some true => joinLosesGuard unbound .logicalOr true test yes
  | none, some false => joinLosesGuard unbound .logicalAnd false test yes
  | none, none => false

/-- Whether a name that may be absent loses its guard when a condition is rewritten. -/
def losesGuard (unbound : Ref → Bool) : Expr → Bool
  | unary _ op value _ => op == .logicalNot && value.losesGuard unbound
  | binary _ op left right =>
    if asksForZero op left right then left.losesGuard unbound
    else op.isAndOr && (left.losesGuard unbound || right.losesGuard unbound)
  | conditional _ test yes no =>
    test.losesGuard unbound || yes.losesGuard unbound || no.losesGuard unbound ||
      chooseLosesGuard unbound test.simplifyCondition yes.simplifyCondition no.simplifyCondition
  | _ => false

variable {unbound : Ref → Bool}

/-- Only comparisons for equality ask for zero. -/
theorem isEquality_of_asksForZero {op : Operator} {left right : Expr}
    (asks : asksForZero op left right) : op.isEquality := by
  simp only [asksForZero, Bool.and_eq_true] at asks
  exact asks.1.1.1

section Negation

/-- The negation of an expression can be removed if the expression can. -/
theorem isRemovable_negate? {e negated : Expr} (found : e.negate? = some negated) :
    negated.isRemovable unbound = e.isRemovable unbound := by
  fun_induction negate? e generalizing negated with
  | case5 loc literal =>
    obtain ⟨zero, _, rfl⟩ := Option.map_eq_some_iff.mp found
    rfl
  | case10 loc value comment ih => exact ih found
  | case11 => cases found; rfl
  | case13 loc op left right other opposed => cases found; exact isRemovable_negated opposed
  | case14 loc op left right plain isComma ih =>
    cases found
    obtain rfl : op = .comma := by simpa using isComma
    -- Only the last operand of a sequence is negated.
    cases inner : right.negate? with
    | none => rfl
    | some shorter =>
      have same := ih inner
      simp only [Option.getD_some, isRemovable, same]
  | case12 | case15 | case16 => cases found
  | _ => cases found; rfl

theorem isRemovable_negateCondition (e : Expr) :
    e.negateCondition.isRemovable unbound = e.isRemovable unbound := by
  unfold negateCondition
  split
  · rfl
  · unfold negate
    cases found : e.negate? with
    | none => rfl
    | some negated => exact isRemovable_negate? found

end Negation

section Joining

/-- What is no guard lets no name be removed behind it. -/
theorem isGuardedBy_eq_false_of_isGuard {guard : Expr} (noGuard : guard.isGuard = false)
    (value : Expr) (onYes : Bool) : value.isGuardedBy guard onYes unbound = false := by
  refine Bool.eq_false_iff.mpr fun guarded => ?_
  have := isGuard_of_isGuardedBy guarded
  rw [noGuard] at this
  cases this

/-- Only names are guarded. -/
theorem isIdentifier_of_isGuardedBy {value guard : Expr} {onYes : Bool}
    (guarded : value.isGuardedBy guard onYes unbound) : value.isIdentifier := by
  cases value with
  | identifier => rfl
  | _ => cases guarded

section

variable {op : Operator} (isAndOr : op.isAndOr)
include isAndOr

theorem isRemovable_connective (loc : Loc) (left right : Expr) :
    (binary loc op left right).isRemovable unbound = (left.isRemovable unbound &&
      (right.isRemovable unbound || right.isGuardedBy left (op == .logicalAnd) unbound)) := by
  cases op with
  | logicalAnd | logicalOr => rfl
  | _ => cases isAndOr

/-- A right operand that is dropped can be removed. -/
theorem isRemovable_logicalCondition (loc : Loc) (left right : Expr) :
    (logicalCondition loc op left right).isRemovable unbound = (left.isRemovable unbound &&
      (right.isRemovable unbound || right.isGuardedBy left (op == .logicalAnd) unbound)) := by
  rw [← isRemovable_connective isAndOr loc left right]
  unfold logicalCondition
  split
  · rename_i known
    split
    · rw [isRemovable_connective isAndOr, (quiet_of_truth? unbound known).1, Bool.true_or,
        Bool.and_true]
    · rfl
  · rfl

theorem isGuard_logicalCondition (loc : Loc) {left : Expr} (noGuard : left.isGuard = false)
    (right : Expr) : (logicalCondition loc op left right).isGuard = false := by
  have built := isGuard_connective (.inr isAndOr) loc left right
  unfold logicalCondition
  split
  · split
    · exact noGuard
    · exact built
  · exact built

/-- Behind what is no guard, every operand has to be removable by itself. -/
theorem isRemovable_strung_of_isGuard {start : Expr} (noGuard : start.isGuard = false)
    (operands : List Expr) :
    (strung logicalCondition op start operands).isRemovable unbound =
      (start.isRemovable unbound && operands.all (isRemovable unbound)) := by
  induction operands generalizing start with
  | nil => simp [strung]
  | cons operand rest ih =>
    -- With one more operand behind it, the start is a connective, or still no guard.
    refine (ih (isGuard_logicalCondition isAndOr _ noGuard operand)).trans ?_
    rw [isRemovable_logicalCondition isAndOr, isGuardedBy_eq_false_of_isGuard noGuard,
      Bool.or_false, List.all_cons, Bool.and_assoc]

end

/--
Each name among the operands that cannot be removed stands behind an operand that joining keeps.

So no guard in front of the operands comes to stand right in front of the name.
-/
def IsSettled (unbound : Ref → Bool) (operands : List Expr) : Prop :=
  ∀ before name after, operands = before ++ name :: after → name.isIdentifier →
    name.isRemovable unbound = false → ∃ operand ∈ before, operand.pureTruth? = none

/-- Joining drops an operand only if it is known what the operand comes to. -/
theorem logicalCondition_cases (loc : Loc) (op : Operator) (left right : Expr) :
    (logicalCondition loc op left right = left ∧ right.pureTruth?.isSome) ∨
      logicalCondition loc op left right = binary loc op left right := by
  rw [logicalCondition_eq]
  split
  · rename_i known
    exact .inl ⟨rfl, by rw [known]; rfl⟩
  · exact .inr rfl

/-- Settled operands can be removed behind anything only if each can be removed by itself. -/
theorem isRemovable_strung {op : Operator} (isAndOr : op.isAndOr) {operands : List Expr}
    (settled : IsSettled unbound operands) (start : Expr) :
    (strung logicalCondition op start operands).isRemovable unbound =
      (start.isRemovable unbound && operands.all (isRemovable unbound)) := by
  induction operands with
  | nil => simp [strung]
  | cons operand rest ih =>
    change (strung logicalCondition op
      (logicalCondition start.loc op start operand) rest).isRemovable unbound = _
    rw [List.all_cons]
    rcases logicalCondition_cases start.loc op start operand with ⟨dropped, known⟩ | kept
    · -- What stands in front of the name in the rest is not the operand that is dropped.
      have restSettled : IsSettled unbound rest := by
        intro before name after same isName unremovable
        obtain ⟨behind, member, unknown⟩ :=
          settled (operand :: before) name after (by rw [same]; rfl) isName unremovable
        rcases List.mem_cons.mp member with rfl | member
        · rw [unknown] at known
          cases known
        · exact ⟨behind, member, unknown⟩
      rw [dropped, ih restSettled, (quiet_of_pureTruth? unbound known).1, Bool.true_and]
    · -- The first operand has nothing in front of it, so the start is no guard for it.
      have alone : operand.isRemovable unbound = false →
          operand.isGuardedBy start (op == .logicalAnd) unbound = false := by
        intro unremovable
        refine Bool.eq_false_iff.mpr fun guarded => ?_
        obtain ⟨_, member, _⟩ :=
          settled [] operand rest rfl (isIdentifier_of_isGuardedBy guarded) unremovable
        cases member
      have noGuard := isGuard_connective (.inr isAndOr) start.loc start operand
      rw [kept, isRemovable_strung_of_isGuard isAndOr noGuard, isRemovable_connective isAndOr,
        ← Bool.and_assoc]
      cases removable : operand.isRemovable unbound with
      | true => rfl
      | false => rw [alone removable]; rfl

/-- What is done to the end of sequences is done behind all that they hold. -/
theorem isRemovable_rewriteLast {f : Expr → Expr} {added : Bool}
    (atEnd : ∀ e, e.isSequence = false →
      (f e).isRemovable unbound = (e.isRemovable unbound && added)) (e : Expr) :
    (rewriteLast f e).isRemovable unbound = (e.isRemovable unbound && added) := by
  fun_induction rewriteLast f e with
  | case1 loc left right ih => simp only [isRemovable, ih, Bool.and_assoc]
  | case2 e single =>
    refine atEnd e ?_
    cases e with
    | binary loc op left right =>
      cases op with
      | comma => exact absurd rfl (single loc left right)
      | _ => rfl
    | _ => rfl

/-- A connective is no sequence, and neither is what is left of it. -/
theorem isSequence_logicalCondition {op : Operator} (isAndOr : op.isAndOr) (loc : Loc)
    (left right : Expr) (single : left.isSequence = false) :
    (logicalCondition loc op left right).isSequence = false := by
  rcases logicalCondition_cases loc op left right with ⟨dropped, _⟩ | kept
  · rw [dropped, single]
  · rw [kept]
    cases op with
    | comma => cases isAndOr
    | _ => rfl

theorem isRemovable_joinBy {op : Operator} (isAndOr : op.isAndOr) (a : Expr) {b : Expr}
    (settled : IsSettled unbound (b.leaves op)) :
    (joinBy logicalCondition op a b).isRemovable unbound =
      (a.isRemovable unbound && (b.leaves op).all (isRemovable unbound)) := by
  refine isRemovable_rewriteLast (fun last single => ?_) a
  rw [joinOnto_eq_strung (isSequence_logicalCondition isAndOr) b single]
  exact isRemovable_strung isAndOr settled last

end Joining

section Guarded

/-- A name that needs a guard is no literal and no chain. -/
theorem joinBy_of_isIdentifier {op : Operator} {guard name : Expr} (isName : name.isIdentifier)
    (single : guard.isSequence = false) :
    joinBy logicalCondition op guard name = binary guard.loc op guard name := by
  cases name with
  | identifier => exact rewriteLast_eq _ single
  | _ => cases isName

/-- A comparison that is turned round guards the other branch. -/
theorem isGuardedBy_negated {op negated : Operator} (opposed : op.negatedEquality = some negated)
    (name : Expr) {loc : Loc} {left right : Expr} (onYes : Bool) :
    name.isGuardedBy (binary loc negated left right) onYes unbound =
      name.isGuardedBy (binary loc op left right) (!onYes) unbound := by
  -- What a comparison proves on one branch, its opposite proves on the other.
  have proves : ∀ test : TypeofTest, { test with op := negated }.provesDefined onYes =
      { test with op := op }.provesDefined !onYes := by
    intro test
    cases op <;> cases opposed <;>
      cases onYes <;> simp [TypeofTest.provesDefined]
  unfold isGuardedBy
  rw [typeofTest?_withOp op negated, typeofTest?_withOp op op]
  cases name.identifierRef? with
  | none => rfl
  | some ref =>
    cases (binary loc op left right).typeofTest? with
    | none => rfl
    | some test => simp only [Option.map_some, proves]

variable {op : Operator} (isAndOr : op.isAndOr) {guard name : Expr} {onYes : Bool}
  (guarded : name.isGuardedBy guard onYes unbound)
include isAndOr guarded

theorem isRemovable_joinBy_guarded (same : (op == .logicalAnd) = onYes) :
    (joinBy logicalCondition op guard name).isRemovable unbound = guard.isRemovable unbound := by
  have isName := isIdentifier_of_isGuardedBy guarded
  have single := isSequence_of_isGuard (isGuard_of_isGuardedBy guarded)
  rw [joinBy_of_isIdentifier isName single, isRemovable_connective isAndOr, same, guarded,
    Bool.or_true, Bool.and_true]

/-- Only a comparison for equality still guards the name when it is negated. -/
theorem isRemovable_joinBy_negated (opposite : (op == .logicalAnd) = !onYes) :
    (joinBy logicalCondition op guard.negateCondition name).isRemovable unbound =
      (guard.isRemovable unbound && (name.isRemovable unbound || !guard.comparesOrder)) := by
  have isName := isIdentifier_of_isGuardedBy guarded
  obtain ⟨loc, compare, left, right, rfl, compares, _⟩ :=
    exists_of_isGuard (isGuard_of_isGuardedBy guarded)
  have removable : (binary loc compare left right).negateCondition.isRemovable unbound =
      (binary loc compare left right).isRemovable unbound := isRemovable_negateCondition _
  cases opposed : compare.negatedEquality with
  | some negated =>
    have notOrder : compare.isRelational = false := by
      cases compare <;> first | rfl | cases opposed
    have negation : (binary loc compare left right).negateCondition =
        binary loc negated left right := by
      simp [negateCondition, negate, negate?, opposed]
    have single : (binary loc negated left right).isSequence = false := by
      cases compare <;> cases opposed <;> rfl
    have stillGuarded : name.isGuardedBy (binary loc negated left right) (!onYes) unbound := by
      rwa [isGuardedBy_negated opposed, Bool.not_not]
    rw [negation] at removable ⊢
    rw [joinBy_of_isIdentifier isName single, isRemovable_connective isAndOr, opposite,
      stillGuarded, removable, comparesOrder, notOrder]
    simp
  | none =>
    -- The negation stands in front of the comparison.
    have noEquality : compare.isEquality = false := by
      rw [← compare.isSome_negatedEquality, opposed]
      rfl
    have isOrder : compare.isRelational := by
      rwa [noEquality, Bool.false_or] at compares
    have negation : (binary loc compare left right).negateCondition =
        unary loc .logicalNot (binary loc compare left right) false := by
      have notComma : compare ≠ .comma := by
        rintro rfl
        cases compares
      simp [negateCondition, negate, negate?, opposed, notComma, Expr.loc]
    rw [negation] at removable ⊢
    rw [joinBy_of_isIdentifier isName rfl, isRemovable_connective isAndOr,
      isGuardedBy_eq_false_of_isGuard rfl, removable, comparesOrder, isOrder]
    simp

end Guarded

section Choice

/-- The operands of a connective that can all be removed make a connective that can. -/
theorem isRemovable_of_leaves {op : Operator} (isAndOr : op.isAndOr) {e : Expr}
    (removable : (e.leaves op).all (isRemovable unbound)) : e.isRemovable unbound := by
  fun_induction leaves op e with
  | case1 loc left right leftIh rightIh =>
    rw [List.all_append, Bool.and_eq_true] at removable
    rw [isRemovable_connective isAndOr, leftIh removable.1, rightIh removable.2]
    rfl
  | case2 => simpa using removable
  | case3 => simpa using removable

/--
A branch of a choice under a test, as a condition.

Its names are settled, or it is a name that cannot be removed but that the test guards.
-/
inductive IsBranch (unbound : Ref → Bool) (test : Expr) (onYes : Bool) (branch : Expr) : Prop
  | settled : (∀ op, op.isAndOr → IsSettled unbound (branch.leaves op)) →
    IsBranch unbound test onYes branch
  | guarded : branch.isRemovable unbound = false → branch.isGuardedBy test onYes unbound →
    IsBranch unbound test onYes branch

/-- A settled operand in front of which nothing stands is not a name that needs a guard. -/
theorem IsSettled.isGuardedBy_eq_false {op : Operator} {branch : Expr}
    (settled : IsSettled unbound (branch.leaves op))
    (unremovable : branch.isRemovable unbound = false)
    (test : Expr) (onYes : Bool) : branch.isGuardedBy test onYes unbound = false := by
  refine Bool.eq_false_iff.mpr fun guarded => ?_
  have isName := isIdentifier_of_isGuardedBy guarded
  have alone : branch.leaves op = [branch] := by
    cases branch with
    | identifier => rfl
    | _ => cases isName
  obtain ⟨_, member, _⟩ := settled [] branch [] alone isName unremovable
  cases member

/--
Rewriting settles the names of a condition that can be removed.

A name with nothing but literals in front of it stood so before, where no guard could spare it.
-/
theorem isSettled_simplifyCondition {e : Expr} (removable : e.isRemovable unbound) (op : Operator)
    (isAndOr : op.isAndOr) : IsSettled unbound (e.simplifyCondition.leaves op) := by
  intro before name after split isName unremovable
  -- If all before the name were known, it would lead the condition behind no guard.
  by_cases known : ∀ operand ∈ before, operand.pureTruth?.isSome
  · have leads : Leads isUnguarding name e.simplifyCondition :=
      .of_leaves isAndOr isName split fun operand member =>
        (quiet_of_pureTruth? unbound (known operand member)).2
    have spared := leads.of_simplifyCondition.isRemovable (by simp) removable
    rw [unremovable] at spared
    cases spared
  · simpa using known

section

variable {op : Operator} (isAndOr : op.isAndOr) {test branch : Expr} {onYes : Bool}
  (isBranch : IsBranch unbound test onYes branch)
include isAndOr isBranch

/-- Joining a branch to its test keeps what can be removed, unless a name loses its guard. -/
theorem isRemovable_joinBy_branch (isNegated : Bool)
    (polarity : (op == .logicalAnd) = (onYes != isNegated)) :
    (joinBy logicalCondition op (if isNegated then test.negateCondition else test)
        branch).isRemovable unbound =
      (test.isRemovable unbound &&
        (branch.isRemovable unbound || branch.isGuardedBy test onYes unbound) &&
        !joinLosesGuard unbound op isNegated test branch) := by
  cases isBranch with
  | settled settled =>
    have testKept : (if isNegated then test.negateCondition else test).isRemovable unbound =
        test.isRemovable unbound := by
      cases isNegated with
      | true => exact isRemovable_negateCondition test
      | false => rfl
    rw [isRemovable_joinBy isAndOr _ (settled op isAndOr), testKept]
    cases removable : branch.isRemovable unbound with
    | true => simp [joinLosesGuard, removable, List.all_eq_not_any_not]
    | false =>
      -- Some operand of the branch cannot be removed, and no guard comes to stand in front of it.
      have stuck : (branch.leaves op).all (isRemovable unbound) = false := by
        refine Bool.eq_false_iff.mpr fun all => ?_
        rw [isRemovable_of_leaves isAndOr all] at removable
        cases removable
      simp [stuck, (settled op isAndOr).isGuardedBy_eq_false removable]
  | guarded unremovable guarded =>
    cases isNegated with
    | true =>
      refine (isRemovable_joinBy_negated isAndOr guarded (by simpa using polarity)).trans ?_
      simp [joinLosesGuard, unremovable, guarded]
    | false =>
      refine (isRemovable_joinBy_guarded isAndOr guarded (by simpa using polarity)).trans ?_
      simp [joinLosesGuard, unremovable, guarded]

end

/-- Writing a choice anew keeps what can be removed, unless a name loses its guard. -/
theorem isRemovable_chooseCondition (loc : Loc) {test yes no : Expr}
    (yesBranch : IsBranch unbound test true yes) (noBranch : IsBranch unbound test false no) :
    (chooseCondition loc test yes no).isRemovable unbound =
      ((conditional loc test yes no).isRemovable unbound &&
        !chooseLosesGuard unbound test yes no) := by
  -- A branch of which it is known what it comes to can be removed.
  have known : ∀ {branch : Expr} {value : Bool}, branch.pureTruth? = some value →
      branch.isRemovable unbound := fun found =>
      (quiet_of_pureTruth? unbound (by rw [found]; rfl)).1
  have onYes := fun op isAndOr => @isRemovable_joinBy_branch _ op isAndOr _ _ _ yesBranch
  have onNo := fun op isAndOr => @isRemovable_joinBy_branch _ op isAndOr _ _ _ noBranch
  rw [chooseCondition, chooseLosesGuard, isRemovable]
  -- Only a choice with a known branch is written as a logical operation.
  cases yesKnown : yes.pureTruth? with
  | some value =>
    rw [known yesKnown, Bool.true_or, Bool.and_true]
    cases value with
    | true => exact onNo _ rfl false rfl
    | false => exact onNo _ rfl true rfl
  | none =>
    cases noKnown : no.pureTruth? with
    | some value =>
      rw [known noKnown, Bool.true_or, Bool.and_true]
      cases value with
      | true => exact onYes _ rfl true rfl
      | false => exact onYes _ rfl false rfl
    | none => exact (Bool.and_true _).symm

/-- An operand behind a test that could be removed there, as it is rewritten. -/
theorem isBranch_simplifyCondition {test branch : Expr} {onYes : Bool}
    (removable : branch.isRemovable unbound || branch.isGuardedBy test onYes unbound)
    (kept : branch.isRemovable unbound →
      branch.simplifyCondition.isRemovable unbound = !branch.losesGuard unbound) :
    IsBranch unbound test.simplifyCondition onYes branch.simplifyCondition ∧
      (branch.simplifyCondition.isRemovable unbound ||
        branch.simplifyCondition.isGuardedBy test.simplifyCondition onYes unbound) =
          !branch.losesGuard unbound := by
  by_cases alone : branch.isRemovable unbound
  · have settled := isSettled_simplifyCondition alone
    refine ⟨.settled settled, ?_⟩
    rw [← kept alone]
    -- What the branch becomes is no name that needs the test.
    cases spared : branch.simplifyCondition.isRemovable unbound with
    | true => rfl
    | false => exact (settled .logicalAnd rfl).isGuardedBy_eq_false spared _ _
  · have guarded : branch.isGuardedBy test onYes unbound := by simpa [alone] using removable
    have isName := isIdentifier_of_isGuardedBy guarded
    -- Neither the name nor its guard is rewritten.
    have same : branch.simplifyCondition = branch ∧ branch.losesGuard unbound = false := by
      cases branch with
      | identifier => exact ⟨rfl, rfl⟩
      | _ => cases isName
    rw [simplifyCondition_of_isGuard (isGuard_of_isGuardedBy guarded), same.1, same.2, guarded]
    exact ⟨.guarded (Bool.eq_false_iff.mpr alone) guarded, by simp⟩

end Choice

/--
What can be removed can be removed as a rewritten condition, unless a name loses its guard.

The names are those that may be absent, and that are read behind a test of their type.
-/
theorem isRemovable_simplifyCondition {e : Expr} (removable : e.isRemovable unbound) :
    e.simplifyCondition.isRemovable unbound = !e.losesGuard unbound := by
  fun_induction simplifyCondition e with
  | case1 loc value fromIdentifier ih =>
    rw [isRemovable_negateCondition, ih removable]
    rfl
  | case2 loc op value fromIdentifier notNegation => simp [losesGuard, notNegation, removable]
  | case3 loc op left right asks isInequality ih =>
    have isEquality := isEquality_of_asksForZero asks
    rw [ih (isRemovable_left_of_isEquality isEquality removable), losesGuard, if_pos asks]
  | case4 loc op left right asks isEquality ih =>
    have isEquality := isEquality_of_asksForZero asks
    rw [isRemovable_negateCondition, ih (isRemovable_left_of_isEquality isEquality removable),
      losesGuard, if_pos asks]
  | case5 loc op left right asks isAndOr leftIh rightIh =>
    rw [isRemovable_connective isAndOr, Bool.and_eq_true] at removable
    have behind := (isBranch_simplifyCondition removable.2 rightIh).2
    rw [isRemovable_logicalCondition isAndOr, leftIh removable.1, behind, losesGuard, if_neg asks,
      isAndOr]
    simp
  | case6 loc op left right asks isAndOr => simp [losesGuard, asks, isAndOr, removable]
  | case7 loc test yes no testIh yesIh noIh =>
    simp only [isRemovable, Bool.and_eq_true] at removable
    obtain ⟨⟨testRemovable, yesRemovable⟩, noRemovable⟩ := removable
    obtain ⟨yesBranch, yesKept⟩ := isBranch_simplifyCondition yesRemovable yesIh
    obtain ⟨noBranch, noKept⟩ := isBranch_simplifyCondition noRemovable noIh
    rw [isRemovable_chooseCondition loc yesBranch noBranch, isRemovable, testIh testRemovable,
      yesKept, noKept, losesGuard]
    simp only [Bool.not_or]
  | case8 e notUnary notBinary notConditional =>
    cases e with
    | unary loc op value fromIdentifier => exact absurd rfl (notUnary loc op value fromIdentifier)
    | binary loc op left right => exact absurd rfl (notBinary loc op left right)
    | conditional loc test yes no => exact absurd rfl (notConditional loc test yes no)
    | _ => exact removable

/-- Turning a comparison with `"undefined"` round keeps a name on the guarded branch. -/
theorem isRemovable_simplifyCondition_equality :
    let unbound : Ref → Bool := fun _ => true
    let name := identifier default default false false
    let test := binary default .strictEquality (unary default .typeof name true)
      (string default (Text.units "undefined"))
    let choice := conditional default test (boolean default false) name
    choice.isRemovable unbound ∧ choice.losesGuard unbound = false ∧
      choice.simplifyCondition.isRemovable unbound := by
  intro unbound name test choice
  have removable : choice.isRemovable unbound := by decide
  have keepsGuard : choice.losesGuard unbound = false := by decide
  refine ⟨removable, keepsGuard, ?_⟩
  rw [isRemovable_simplifyCondition removable, keepsGuard]
  rfl

/--
Two conditions that can be removed and are rewritten to ones that cannot.

They are `typeof x > "u" ? false : x`, whose comparison is negated, and
`y ? typeof x !== "undefined" && x : false`, whose branch is strung onto the test.
-/
theorem simplifyCondition_losesRemovability :
    let unbound : Ref → Bool := fun _ => true
    let name := identifier default default false false
    let typeName := unary default .typeof name true
    let ordered := conditional default
      (binary default .greaterThan typeName (string default (Text.units "u")))
      (boolean default false) name
    let nested := conditional default (identifier default default true false)
      (binary default .logicalAnd
        (binary default .strictInequality typeName (string default (Text.units "undefined"))) name)
      (boolean default false)
    (ordered.isRemovable unbound ∧ ordered.simplifyCondition.isRemovable unbound = false) ∧
      (nested.isRemovable unbound ∧ nested.simplifyCondition.isRemovable unbound = false) := by
  decide

end Expr

end EcmaPrune
