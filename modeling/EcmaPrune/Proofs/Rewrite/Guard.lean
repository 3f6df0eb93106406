import EcmaPrune.Proofs.Rewrite.Chain
import EcmaPrune.Proofs.Semantics.Effects
import EcmaPrune.Rewrite.Discard

/-! Tests in front of an expression: those against null, and those that let a name be read. -/

namespace EcmaPrune.Expr

variable {W : Type}

section

variable (host : Host W) (loc : Loc)

/-- A test of a bound name against null looks the name up, whichever side it is on. -/
theorem truth_testAgainstNull {test : Operator} (asks : test = .equality ∨ test = .inequality)
    {left right : Expr} {name : Run W Value}
    (operands : left.eval host = name ∧ right.eval host = pure .null ∨
      left.eval host = pure .null ∧ right.eval host = name) :
    (binary loc test left right).truth host =
      (fun value => (test == .inequality) != value.isNullish) <$> name := by
  have plain : test.takesValues := by rcases asks with rfl | rfl <;> rfl
  have different : (Operator.equality == .inequality) = false := rfl
  rw [truth, eval_binary host loc plain]
  -- Either operator asks for the same equality, and one of them for its opposite.
  rcases operands with ⟨rfl, isNull⟩ | ⟨isNull, rfl⟩ <;> rcases asks with rfl | rfl <;>
    simp [isNull, Host.applyBinary, Host.looseEq_null_right, Host.looseEq_null_left,
      Value.toBoolean, different]

end

/-- A test that has a guard compares a bound name with null, on whichever side. -/
theorem eq_of_nullGuard? {unbound : Ref → Bool} {op : Operator} {e guard : Expr}
    (found : e.nullGuard? unbound op = some guard) :
    ∃ nameLoc ref isRemovable, guard = identifier nameLoc ref isRemovable false ∧
      unbound ref = false ∧ ∃ loc test nullLoc,
        (test = .inequality ∧ op = .logicalAnd ∨ test = .equality ∧ op = .logicalOr) ∧
        (e = binary loc test guard (null nullLoc) ∨ e = binary loc test (null nullLoc) guard) := by
  unfold nullGuard? at found
  split at found
  · rename_i loc test left right
    split at found
    · rename_i asks
      -- The test goes with the operation that runs its right side if the name is not null.
      have asks : test = .inequality ∧ op = .logicalAnd ∨ test = .equality ∧ op = .logicalOr := by
        simpa using asks
      split at found
      · split at found <;> cases found
        exact ⟨_, _, _, rfl, by simp_all, loc, test, _, asks, .inl rfl⟩
      · split at found <;> cases found
        exact ⟨_, _, _, rfl, by simp_all, loc, test, _, asks, .inr rfl⟩
      · cases found
    · cases found
  · cases found

/-- A test that has a guard holds on the side of the operation where the guard is not null. -/
theorem truth_of_nullGuard? {host : Host W} {unbound : Ref → Bool} {op : Operator}
    {e guard : Expr} {ref : Ref} (looksUp : host.LooksUp ref)
    (found : e.nullGuard? unbound op = some guard) (named : guard.identifierRef? = some ref) :
    e.truth host = Run.inWorld fun w =>
      pure ((op == .logicalAnd) != (host.lookup ref w).isNullish) := by
  obtain ⟨nameLoc, ref', isRemovable, rfl, _, loc, test, nullLoc, asks, compared⟩ :=
    eq_of_nullGuard? found
  cases named
  have lookedUp : (identifier nameLoc ref isRemovable false).eval host =
      Run.inWorld fun w => pure (host.lookup ref w) := by
    rw [eval_identifier, looksUp isRemovable]
  have asksEquality : test = .equality ∨ test = .inequality := by
    rcases asks with ⟨rfl, _⟩ | ⟨rfl, _⟩ <;> simp
  have polarity : (test == .inequality) = (op == .logicalAnd) := by
    rcases asks with ⟨rfl, rfl⟩ | ⟨rfl, rfl⟩ <;> rfl
  rcases compared with rfl | rfl
  · rw [truth_testAgainstNull host loc asksEquality (.inl ⟨lookedUp, eval_null host nullLoc⟩),
      polarity]
    rfl
  · rw [truth_testAgainstNull host loc asksEquality (.inr ⟨eval_null host nullLoc, lookedUp⟩),
      polarity]
    rfl

/-- An optional chain runs as the links did, except where its name is nullish. -/
theorem effects_insertChain? {host : Host W} {e guard chain : Expr} {ref : Ref}
    (looksUp : host.LooksUp ref) (inserted : e.insertChain? guard = some chain)
    (named : guard.identifierRef? = some ref) (rooted : e.StartsAt ref)
    (followed : e.isFollowedBy host) (unbroken : e.isUnbroken) :
    chain.effects host = Run.inWorld fun w =>
      if (host.lookup ref w).isNullish then pure () else e.effects host := by
  funext w
  -- Both expressions settle what they refer to, and only that differs.
  have refers := refer_insertChain? looksUp (w := w) inserted named rooted followed unbroken
  simp only [effects, eval, Host.value, Run.ignored_bind, Run.inWorld]
  split
  · rename_i nullish
    rw [if_pos nullish] at refers
    rw [Run.bind_apply_of_pure refers, Host.settle_none, Run.ignored_pure]
  · rename_i there
    rw [if_neg there] at refers
    exact Run.bind_apply_congr refers _

/-- An optional chain runs as the test of its name against null did with the links behind it. -/
theorem effects_guardedChain {host : Host W} {unbound : Ref → Bool} {op : Operator}
    {left right guard chain : Expr} {ref : Ref} (looksUp : host.LooksUp ref)
    (guarded : left.nullGuard? unbound op = some guard) (named : guard.identifierRef? = some ref)
    (inserted : right.insertChain? guard = some chain) (rooted : right.StartsAt ref)
    (followed : right.isFollowedBy host) (unbroken : right.isUnbroken) :
    chain.effects host = left.truth host >>= fun holds =>
      if holds = (op == .logicalAnd) then right.effects host else pure () := by
  rw [effects_insertChain? looksUp inserted named rooted followed unbroken,
    truth_of_nullGuard? looksUp guarded named, Run.inWorld_pure_bind]
  -- The chain is skipped exactly where the test would not let the right side run.
  congr 1
  funext w
  cases (host.lookup ref w).isNullish <;> simp

section

variable {host : Host W} {cx : DiscardContext}

/-- An operation stays one, or is a chain that takes in the test on its left side. -/
theorem logicalOrChain_cases (cx : DiscardContext) (loc : Loc) (op : Operator)
    (left right : Expr) :
    logicalOrChain cx loc op left right = binary loc op left right ∨
      cx.chainsSupported ∧ ∃ guard, left.nullGuard? cx.unbound op = some guard ∧
        right.insertChain? guard = some (logicalOrChain cx loc op left right) := by
  unfold logicalOrChain
  split
  · rename_i supported
    cases found : (left.nullGuard? cx.unbound op).bind fun guard => right.insertChain? guard with
    | none => exact .inl rfl
    | some chain =>
      obtain ⟨guard, guarded, inserted⟩ := Option.bind_eq_some_iff.mp found
      exact .inr ⟨supported, guard, guarded, inserted⟩
  · exact .inl rfl

/-- Whether what is left behind a test may take the test in, where both become one chain. -/
def TakesTest (cx : DiscardContext) (op : Operator) (test rest : Expr) : Prop :=
  cx.chainsSupported → ∀ guard ∈ test.nullGuard? cx.unbound op,
    (rest.insertChain? guard).isSome → rest.takesTest

/-- Other operations than those that a test against null can decide are not taken in. -/
theorem logicalOrChain_nullishCoalescing (loc : Loc) (left right : Expr) :
    logicalOrChain cx loc .nullishCoalescing left right =
      binary loc .nullishCoalescing left right := by
  rcases logicalOrChain_cases cx loc .nullishCoalescing left right with
    same | ⟨_, guard, guarded, _⟩
  · exact same
  · obtain ⟨_, _, _, _, _, _, _, _, asks, _⟩ := eq_of_nullGuard? guarded
    rcases asks with ⟨_, same⟩ | ⟨_, same⟩ <;> cases same

/-- What is left of a branch may stand for it where its guard lets it run. -/
theorem truth_bind_rest (trusts : host.Trusts cx.unbound) {guard branch : Expr} {onYes : Bool}
    {rest : Option Expr}
    (inScope : branch.isGuardedBy guard onYes cx.unbound → branch.mustKeepInWith = false)
    (same : ¬ branch.isGuardedBy guard onYes cx.unbound →
      restEffects host rest = branch.effects host) (other : Run W Unit) :
    (guard.truth host >>= fun holds => if holds = onYes then
      restEffects host (if branch.isGuardedBy guard onYes cx.unbound then none else rest)
      else other) =
    guard.truth host >>= fun holds => if holds = onYes then branch.effects host else other := by
  by_cases guarded : branch.isGuardedBy guard onYes cx.unbound
  · rw [if_pos guarded]
    funext w
    obtain ⟨value, asked⟩ : (guard.eval host).Silent w := eval_guard_silent host guarded w
    have decided : guard.truth host w = (pure value.toBoolean : Run W Bool) w := by
      rw [truth, Run.map_apply, asked]
      rfl
    rw [Run.bind_apply_of_pure decided, Run.bind_apply_of_pure decided]
    split
    · -- The name that the branch reads is there, as the guard came out that way.
      rename_i taken
      obtain ⟨read, silent⟩ := eval_silent_of_isGuardedBy trusts guarded (inScope guarded)
        (show (guard.eval host w).result = .ok value by rw [asked]; rfl) taken
      exact (Run.bind_apply_of_pure silent fun _ => pure ()).symm
    · rfl
  · rw [if_neg guarded, same guarded]

end

end EcmaPrune.Expr
