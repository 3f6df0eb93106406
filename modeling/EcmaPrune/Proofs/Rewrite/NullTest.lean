import EcmaPrune.Proofs.Rewrite.Discard

/-! A test of a name against null, and the chain behind it, written as one optional chain. -/

namespace EcmaPrune

variable {W : Type}

namespace Host

/-- The same host, hearing every access and call whatever is annotated, and having what is bound. -/
def watching (host : Host W) (unbound : Ref → Bool) : Host W :=
  { host with
    trustsAnnotations := false
    fieldCallsAreQuiet := false
    readsQuietly := fun ref w => !unbound ref || host.readsQuietly ref w }

/-- Such a host does not hear of the names that are bound. -/
theorem watching_looksUp (host : Host W) {unbound : Ref → Bool} {ref : Ref}
    (bound : unbound ref = false) : (host.watching unbound).LooksUp ref := by
  intro isRemovable
  funext w
  simp [watching, read, Run.inWorld, bound]

end Host

namespace Expr

/-- No link goes unheard where no annotation is believed. -/
theorem isFollowedBy_watching (host : Host W) (unbound : Ref → Bool) (e : Expr) :
    e.isFollowedBy (host.watching unbound) := by
  fun_induction isFollowedBy (host.watching unbound) e with
  | case1 loc target name link isRemovable ih | case2 loc target key link isRemovable ih =>
    exact Bool.and_eq_true_iff.mpr ⟨rfl, ih⟩
  | case3 loc target args link isPure kind ih => exact Bool.and_eq_true_iff.mpr ⟨rfl, ih⟩
  | case4 => rfl

/-- A test behind which an operation runs its right side only where a name is not nullish. -/
inductive NullTest (name : Expr) : Operator → Expr → Prop where
  | nameIsNot (loc nullLoc : Loc) :
    NullTest name .logicalAnd (binary loc .inequality name (null nullLoc))
  | nullIsNot (loc nullLoc : Loc) :
    NullTest name .logicalAnd (binary loc .inequality (null nullLoc) name)
  | nameIs (loc nullLoc : Loc) :
    NullTest name .logicalOr (binary loc .equality name (null nullLoc))
  | nullIs (loc nullLoc : Loc) :
    NullTest name .logicalOr (binary loc .equality (null nullLoc) name)

section

variable {nameLoc : Loc} {ref : Ref} {isRemovable : Bool} {op : Operator} {left : Expr}
  (test : NullTest (identifier nameLoc ref isRemovable false) op left)
include test

theorem NullTest.isAndOr : op.isAndOr := by
  cases test <;> rfl

/-- A comparison with null does not ask for zero, so as a condition it stays. -/
theorem NullTest.simplifyCondition_eq : left.simplifyCondition = left := by
  cases test <;> simp [simplifyCondition, asksForZero, isZeroLiteral, Operator.isAndOr]

theorem NullTest.nullGuard?_eq {unbound : Ref → Bool} (bound : unbound ref = false) :
    left.nullGuard? unbound op = some (identifier nameLoc ref isRemovable false) := by
  cases test <;> simp [nullGuard?, bound]

/-- Links that have to stay become an optional chain together with the test in front of them. -/
theorem discard_nullTest {cx : DiscardContext} (supported : cx.chainsSupported)
    (bound : cx.unbound ref = false) {e chain : Expr} (stays : e.discard cx = some e)
    (inserted : e.insertChain? (identifier nameLoc ref isRemovable false) = some chain)
    (loc : Loc) : (binary loc op left e).discard cx = some chain := by
  -- What links become a chain of is no name that a type test could guard.
  have noName : e.identifierRef? = none := by
    cases e with
    | identifier => cases inserted
    | _ => rfl
  have unguarded : e.isGuardedBy left (op == .logicalAnd) cx.unbound = false := by
    simp [isGuardedBy, noName]
  rw [discard_logical cx loc test.isAndOr, test.simplifyCondition_eq, unguarded, stays]
  simp [logicalOrChain, supported, test.nullGuard?_eq bound, inserted]

end

/--
A test of a bound name against null and links that start at the name run as the chain made of them.

The links may have been optional before, as long as none of them stands outside of a part of their
chain that may be cut short: such a link joins the chain, and is then skipped with that part.
-/
theorem discard_nullTest_keepsEffects (host : Host W) {cx : DiscardContext}
    (supported : cx.chainsSupported) {nameLoc : Loc} {ref : Ref} {isRemovable : Bool}
    (bound : cx.unbound ref = false) {op : Operator} {left e chain : Expr}
    (test : NullTest (identifier nameLoc ref isRemovable false) op left)
    (stays : e.discard cx = some e)
    (inserted : e.insertChain? (identifier nameLoc ref isRemovable false) = some chain)
    (rooted : e.StartsAt ref) (unbroken : e.isUnbroken) (loc : Loc) :
    (binary loc op left e).discard cx = some chain ∧
      chain.effects (host.watching cx.unbound) =
        (binary loc op left e).effects (host.watching cx.unbound) := by
  have looksUp := host.watching_looksUp bound
  have guarded := test.nullGuard?_eq bound
  have followed := isFollowedBy_watching host cx.unbound e
  constructor
  · exact discard_nullTest test supported bound stays inserted loc
  · -- The chain is skipped from the name on where the test keeps the links from running.
    rw [effects_logical _ loc test.isAndOr]
    exact effects_guardedChain looksUp guarded rfl inserted rooted followed unbroken

/-- Links of a chain that was optional further out are skipped from the name on. -/
theorem discard_nullTest_keepsEffects_optional :
    let name := identifier default default false false
    let test := binary default .equality (null default) name
    let links := fun first =>
      call default (dot default (dot default name "x" first false) "y" .start false) []
        .continued false .normal
    let cx : DiscardContext := ⟨true, fun _ => false⟩
    let host := (default : Host Unit).watching cx.unbound
    NullTest name .logicalOr test ∧ (links .plain).isUnbroken ∧
      (binary default .logicalOr test (links .plain)).discard cx = some (links .start) ∧
      (links .start).effects host =
        (binary default .logicalOr test (links .plain)).effects host := by
  intro name test links cx host
  have tests : NullTest name .logicalOr test := .nullIs default default
  have stays : (links .plain).discard cx = some (links .plain) := discard.eq_def cx _
  have inserted : (links .plain).insertChain? name = some (links .start) := rfl
  have rooted : (links .plain).StartsAt default := ⟨default, false, rfl⟩
  have unbroken : (links .plain).isUnbroken := rfl
  have kept := discard_nullTest_keepsEffects (default : Host Unit) rfl rfl tests stays inserted
    rooted unbroken default
  exact ⟨tests, unbroken, kept⟩

/--
A link outside of a part that is cut short is lost to the chain.

With a name that is there and a property that is not, the access behind them used to throw.
-/
theorem discard_nullTest_losesEffects :
    let name := identifier default default false false
    let test := binary default .inequality name (null default)
    let links := fun first last =>
      dot default (dot default (dot default name "x" first false) "y" .start false) "z" last false
    let cx : DiscardContext := ⟨true, fun _ => false⟩
    NullTest name .logicalAnd test ∧
      (links .plain .plain).discard cx = some (links .plain .plain) ∧
      (binary default .logicalAnd test (links .plain .plain)).discard cx =
        some (links .start .continued) ∧
      ∃ host : Host Unit, (links .start .continued).effects (host.watching cx.unbound) ≠
        (binary default .logicalAnd test (links .plain .plain)).effects
          (host.watching cx.unbound) := by
  intro name test links cx
  have tests : NullTest name .logicalAnd test := .nameIsNot default default
  have stays : (links .plain .plain).discard cx = some (links .plain .plain) :=
    discard.eq_def cx _
  -- In one world the name is an object, of which every property is `undefined`.
  let there : Host Unit := { (default : Host Unit) with lookup := fun _ _ => .object 0 }
  have joined := discard_nullTest tests rfl rfl stays rfl default
  refine ⟨tests, stays, joined, there, ?_⟩
  intro same
  have ends := congrArg (fun run => (run ()).result.isOk) same
  exact absurd ends (by decide)

end Expr

end EcmaPrune
