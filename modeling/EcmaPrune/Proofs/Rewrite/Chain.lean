import EcmaPrune.Proofs.Analysis.Removable
import EcmaPrune.Rewrite.Chain

/-! Optional chains in the place of tests against null skip what the tests skipped. -/

namespace EcmaPrune

variable {W : Type}

namespace Expr

/-- The name at which a chain of links starts. -/
def chainRoot? : Expr → Option Expr
  | dot _ target .. | index _ target .. | call _ target .. =>
    if target.unwrapped.isIdentifier then some target.unwrapped else target.chainRoot?
  | _ => none

/-- A member access or a call. -/
def isLink : Expr → Bool
  | dot .. | index .. | call .. => true
  | _ => false

/-- Whether a chain may be cut short somewhere else than at the name where it starts. -/
def mayBeCut : Expr → Bool
  | dot _ target _ link _ | index _ target _ link _ | call _ target _ link _ _ =>
    !target.unwrapped.isIdentifier &&
      (link == .start || (link == .continued && target.mayBeCut))
  | _ => false

/--
Whether a chain still means the same after it has taken in a test of its name against null.

Then all its links join in being skipped. Those that are annotated do not, as their targets are not
evaluated, and those that stand outside of a chain which is cut short would not be skipped before.
The name is not one that an object may provide, as the test does not ask that object.
-/
def takesTest : Expr → Bool
  | dot _ target _ link isRemovable | index _ target _ link isRemovable =>
    !isRemovable && (link != .plain || !target.mayBeCut) && target.takesTest
  | call _ target _ link isPure _ =>
    !isPure && (link != .plain || !target.mayBeCut) && target.takesTest
  | e => !e.unwrapped.mustKeepInWith

/-- Whether no link of a chain stands outside of a part of it that may be cut short. -/
def isUnbroken : Expr → Bool
  | dot _ target _ link _ | index _ target _ link _ | call _ target _ link _ _ =>
    (link != .plain || !target.mayBeCut) && target.isUnbroken
  | _ => true

/-- Whether a host follows all links of a chain, so that none of its targets is passed over. -/
def isFollowedBy (host : Host W) : Expr → Bool
  | dot _ target _ _ isRemovable | index _ target _ _ isRemovable =>
    !(host.trustsAnnotations && isRemovable) && target.isFollowedBy host
  | call _ target _ _ isPure kind => !host.isQuietCall isPure kind && target.isFollowedBy host
  | _ => true

theorem isUnbroken_of_takesTest {e : Expr} (taken : e.takesTest) : e.isUnbroken := by
  fun_induction takesTest e with
  | case1 loc target name link isRemovable ih
  | case2 loc target key link isRemovable ih
  | case3 loc target args link isPure kind ih =>
    -- What takes a test asks the same of each link, and that it is not annotated.
    simp only [isUnbroken, Bool.and_eq_true] at taken ⊢
    exact ⟨taken.1.2, ih taken.2⟩
  | case4 e notDot notIndex notCall => rw [isUnbroken] <;> assumption

/-- What takes a test has no annotated link, so any host follows it that hears field calls. -/
theorem isFollowedBy_of_takesTest {host : Host W} (loud : host.fieldCallsAreQuiet = false)
    {e : Expr} (taken : e.takesTest) : e.isFollowedBy host := by
  fun_induction takesTest e with
  | case1 loc target name link isRemovable ih
  | case2 loc target key link isRemovable ih
  | case3 loc target args link isPure kind ih =>
    simp only [Bool.and_eq_true, Bool.not_eq_true'] at taken
    obtain ⟨⟨notAnnotated, _⟩, targetTaken⟩ := taken
    simp [isFollowedBy, Host.isQuietCall, notAnnotated, loud, ih targetTaken]
  | case4 e notDot notIndex notCall => rw [isFollowedBy] <;> assumption

end Expr

namespace Host

variable (host : Host W)

/-- Whether reading a name does no more than look it up, if no object may provide the name. -/
def LooksUp (host : Host W) (ref : Ref) : Prop :=
  ∀ isRemovable, host.read ref isRemovable false = Run.inWorld fun w => pure (host.lookup ref w)

/-- A bound name is looked up when it is read, which nobody sees. -/
theorem looksUp_of_bound {host : Host W} {unbound : Ref → Bool} (trusts : host.Trusts unbound)
    {ref : Ref} (bound : unbound ref = false) : host.LooksUp ref := by
  intro isRemovable
  funext w
  simp [read, Run.inWorld, trusts.reads, bound]

/-- A link at such a name is skipped only if it starts a chain there and the value is nullish. -/
theorem enter_name {host : Host W} {ref : Ref} (looksUp : host.LooksUp ref) (link : ChainLink)
    (isRemovable : Bool) (w : W) :
    host.enter link (some (.name ref isRemovable false)) w =
      (pure (if link = .start ∧ (host.lookup ref w).isNullish then none
        else some (.name ref isRemovable false, host.lookup ref w)) :
          Run W (Option (Referent × Value))) w := by
  -- A name is its own place, and reading it looks it up.
  simp only [enter, resolve, pure_bind, loadResolved, looksUp isRemovable]
  rfl

/-- Where the name is not nullish, the first link of a chain is followed in any case. -/
theorem follow_name {host : Host W} {ref : Ref} (looksUp : host.LooksUp ref) (link : ChainLink)
    (isRemovable : Bool) (rest : Referent → Value → Run W Referent) (w : W) :
    host.follow link (pure (some (.name ref isRemovable false))) rest w =
      if link = .start ∧ (host.lookup ref w).isNullish then
        (pure none : Run W (Option Referent)) w
      else (some <$> rest (.name ref isRemovable false) (host.lookup ref w)) w := by
  rw [follow, pure_bind, Run.bind_apply_of_pure (enter_name looksUp link isRemovable w)]
  split <;> simp

/-- A link whose target is cut short is skipped, unless it stands outside of the chain. -/
theorem follow_none {link : ChainLink} {target : Run W (Option Referent)} {w : W}
    (rest : Referent → Value → Run W Referent) (inChain : link ≠ .plain)
    (cut : target w = (pure none : Run W (Option Referent)) w) :
    host.follow link target rest w = (pure none : Run W (Option Referent)) w := by
  -- Nothing has happened when the target turns out to be cut short.
  rw [follow, bind_assoc, Run.bind_apply_of_pure cut]
  simp [enter, inChain]

/-- A link whose target is there is followed, unless the chain starts right behind that. -/
theorem follow_ne_none {link : ChainLink} {target : Run W (Option Referent)} {w : W}
    (rest : Referent → Value → Run W Referent) (noStart : link ≠ .start)
    (there : link = .plain ∨ (target w).result ≠ .ok none) :
    (host.follow link target rest w).result ≠ .ok none := by
  -- Suppose the chain were cut short, and ask where.
  intro cut
  obtain ⟨entered, found, cut⟩ := Run.result_of_bind cut
  cases entered with
  | some entered =>
    -- A link that was entered leads somewhere or ends abruptly.
    obtain ⟨referent, _, ended⟩ := Run.result_of_bind cut
    cases ended
  | none =>
    obtain ⟨referent, ended, found⟩ := Run.result_of_bind found
    cases referent with
    | none =>
      -- Only a link in the chain is cut short together with its target.
      have inChain : link ≠ .plain := by
        rintro rfl
        cases found
      exact there.elim inChain fun there => there ended
    | some referent =>
      -- A target that is there is only passed over by a link that starts a chain.
      obtain ⟨place, _, found⟩ := Run.result_of_bind found
      obtain ⟨value, _, found⟩ := Run.result_of_bind found
      simp [noStart, Run.pure_apply] at found

/-- A link behind the new start of a chain goes on as before from a target that is there. -/
theorem follow_behindStart {link : ChainLink} {target target' : Run W (Option Referent)} {w : W}
    (rest : Referent → Value → Run W Referent) (same : target' w = target w)
    (there : link ≠ .plain ∨ (target w).result ≠ .ok none) :
    host.follow link.behindStart target' rest w = host.follow link target rest w := by
  -- Joining a chain makes a difference only for a target that is cut short.
  have entered : (target' >>= host.enter link.behindStart) w = (target >>= host.enter link) w := by
    rw [Run.bind_apply, Run.bind_apply, same]
    cases ended : (target w).result with
    | error abrupt => rfl
    | ok referent =>
      cases referent with
      | some referent => cases link <;> rfl
      | none =>
        have inChain : link ≠ .plain := there.resolve_right (· ended)
        cases link with
        | plain => exact absurd rfl inChain
        | start | continued => rfl
  exact Run.bind_apply_congr entered _

end Host

namespace Expr

variable {host : Host W}

/-- An access of which no annotation is believed follows its link. -/
theorem refer_dot {isRemovable : Bool} (seen : (host.trustsAnnotations && isRemovable) = false)
    (loc : Loc) (target : Expr) (name : String) (link : ChainLink) :
    (dot loc target name link isRemovable).refer host =
      host.follow link (target.refer host) fun _ base =>
        pure (.member base (.string (Text.units name))) := by
  simp [refer, seen]

theorem refer_index {isRemovable : Bool} (seen : (host.trustsAnnotations && isRemovable) = false)
    (loc : Loc) (target key : Expr) (link : ChainLink) :
    (index loc target key link isRemovable).refer host =
      host.follow link (target.refer host) fun _ base => do
        return .member base (← key.eval host) := by
  simp [refer, eval, seen]

theorem refer_call {isPure : Bool} {kind : CallKind} (seen : host.isQuietCall isPure kind = false)
    (loc : Loc) (target : Expr) (args : List Expr) (link : ChainLink) :
    (call loc target args link isPure kind).refer host =
      host.follow link (target.refer host) fun place function => do
        let values ← evalList host args
        return .value (← host.invoke (.call place function values kind) function) := by
  simp [refer, seen]

/-- A name refers to itself, also as an inlined constant. -/
theorem refer_of_unwrapped {e : Expr} {loc : Loc} {ref : Ref} {isRemovable mustKeepInWith : Bool}
    (named : e.unwrapped = identifier loc ref isRemovable mustKeepInWith) :
    e.refer host = pure (some (.name ref isRemovable mustKeepInWith)) := by
  fun_induction unwrapped e with
  -- The wrapper of an inlined constant refers to what the constant does.
  | case1 loc value comment ih => simp [refer, ih named]
  | case2 e =>
    subst named
    rw [refer]

/-- A name that is looked for is found only at that name. -/
theorem unwrapped_of_looksLike {guard target : Expr} {ref : Ref}
    (named : guard.identifierRef? = some ref) (alike : guard.looksLike target) :
    target.unwrapped.isIdentifier ∧ target.unwrapped.identifierRef? = some ref := by
  cases guard with
  | identifier =>
    cases named
    rw [looksLike] at alike
    split at alike
    · rename_i same
      rw [same, ← beq_iff_eq.mp alike]
      exact ⟨rfl, rfl⟩
    · cases alike
  | _ => cases named

theorem eq_identifier {e : Expr} {ref : Ref} (named : e.identifierRef? = some ref)
    (inScope : e.mustKeepInWith = false) :
    ∃ loc isRemovable, e = identifier loc ref isRemovable false := by
  cases e with
  | identifier loc _ isRemovable =>
    cases named
    cases inScope
    exact ⟨loc, isRemovable, rfl⟩
  | _ => cases named

/-- Whether the links of a chain start at a given name, which no object may provide. -/
def StartsAt (ref : Ref) (e : Expr) : Prop :=
  ∃ loc isRemovable, e.chainRoot? = some (identifier loc ref isRemovable false)

section

variable {ref : Ref} (looksUp : host.LooksUp ref)
include looksUp

/-- A link leads somewhere if its target is the name or leads somewhere itself. -/
theorem follow_refer_ne_none {target : Expr} {link : ChainLink} {w : W}
    (rest : Referent → Value → Run W Referent)
    (rooted : ∃ loc isRemovable, (if target.unwrapped.isIdentifier then some target.unwrapped
      else target.chainRoot?) = some (identifier loc ref isRemovable false))
    (uncut : (!target.unwrapped.isIdentifier &&
      (link == .start || (link == .continued && target.mayBeCut))) = false)
    (there : (host.lookup ref w).isNullish = false)
    (inside : target.StartsAt ref → target.mayBeCut = false →
      (target.refer host w).result ≠ .ok none) :
    (host.follow link (target.refer host) rest w).result ≠ .ok none := by
  obtain ⟨loc, isRemovable, rooted⟩ := rooted
  -- The link stands directly at the name, or further out.
  by_cases isName : target.unwrapped.isIdentifier
  · rw [if_pos isName] at rooted
    rw [refer_of_unwrapped (Option.some.inj rooted), host.follow_name looksUp, there,
      if_neg (by simp), Run.map_apply]
    -- The name is not nullish, so the link goes on.
    cases (rest _ _ w).result <;> simp [Except.map]
  · rw [if_neg isName] at rooted
    simp only [isName, Bool.not_false, Bool.true_and, Bool.or_eq_false_iff, beq_eq_false_iff_ne,
      Bool.and_eq_false_iff] at uncut
    -- Further out a link that starts a chain might cut it short, which was ruled out.
    refine host.follow_ne_none rest uncut.1 ?_
    cases link with
    | plain => exact .inl rfl
    | start => exact absurd rfl uncut.1
    | continued =>
      exact .inr (inside ⟨loc, isRemovable, rooted⟩ (uncut.2.resolve_left (absurd rfl)))

/-- Where its name is not nullish, a chain that is cut short nowhere else leads somewhere. -/
theorem refer_ne_none {e : Expr} {w : W} (rooted : e.StartsAt ref)
    (followed : e.isFollowedBy host) (uncut : e.mayBeCut = false)
    (there : (host.lookup ref w).isNullish = false) : (e.refer host w).result ≠ .ok none := by
  fun_induction isFollowedBy host e with
  | case1 loc target name link isRemovable ih =>
    obtain ⟨seen, targetFollowed⟩ := Bool.and_eq_true_iff.mp followed
    rw [refer_dot ((Bool.not_eq_true' _).mp seen)]
    exact follow_refer_ne_none looksUp _ rooted uncut there fun rooted uncut =>
      ih rooted targetFollowed uncut
  | case2 loc target key link isRemovable ih =>
    obtain ⟨seen, targetFollowed⟩ := Bool.and_eq_true_iff.mp followed
    rw [refer_index ((Bool.not_eq_true' _).mp seen)]
    exact follow_refer_ne_none looksUp _ rooted uncut there fun rooted uncut =>
      ih rooted targetFollowed uncut
  | case3 loc target args link isPure kind ih =>
    obtain ⟨seen, targetFollowed⟩ := Bool.and_eq_true_iff.mp followed
    rw [refer_call (by simpa using seen)]
    exact follow_refer_ne_none looksUp _ rooted uncut there fun rooted uncut =>
      ih rooted targetFollowed uncut
  | case4 e notDot notIndex notCall =>
    obtain ⟨loc, isRemovable, rooted⟩ := rooted
    cases e with
    | dot => exact (notDot _ _ _ _ _ rfl).elim
    | index => exact (notIndex _ _ _ _ _ rfl).elim
    | call => exact (notCall _ _ _ _ _ _ rfl).elim
    | _ => cases rooted

end

/-- Only links become optional, and they stay links. -/
theorem isLink_of_insertChain? {e guard chain : Expr}
    (inserted : e.insertChain? guard = some chain) : e.isLink ∧ chain.isLink := by
  cases e with
  | dot | index | call =>
    rw [insertChain?] at inserted
    split at inserted
    · cases inserted
      exact ⟨rfl, rfl⟩
    · obtain ⟨_, _, rfl⟩ := Option.map_eq_some_iff.mp inserted
      exact ⟨rfl, rfl⟩
  | _ => cases inserted

theorem isIdentifier_of_isLink {e : Expr} (link : e.isLink) : e.unwrapped.isIdentifier = false := by
  cases e with
  | dot | index | call => rfl
  | _ => cases link

/-- What a chain takes a test in at is a name, which no object may provide. -/
theorem takesTest_of_isName {e : Expr} (isName : e.unwrapped.isIdentifier) :
    e.takesTest = !e.unwrapped.mustKeepInWith := by
  cases e with
  | dot | index | call => cases isName
  | _ => rfl

/-- A chain that may take in a test of a name starts at that name. -/
theorem startsAt_of_insertChain? {e guard chain : Expr} {ref : Ref}
    (inserted : e.insertChain? guard = some chain) (named : guard.identifierRef? = some ref)
    (taken : e.takesTest) : e.StartsAt ref := by
  fun_induction insertChain? e guard generalizing chain with
  | case1 loc target name link isRemovable alike
  | case3 loc target key link isRemovable alike
  | case5 loc target args link isPure kind alike =>
    obtain ⟨isName, same⟩ := unwrapped_of_looksLike named alike
    have inScope := (Bool.and_eq_true_iff.mp taken).2
    rw [takesTest_of_isName isName, Bool.not_eq_true'] at inScope
    obtain ⟨nameLoc, flag, root⟩ := eq_identifier same inScope
    exact ⟨nameLoc, flag, (if_pos isName).trans (congrArg some root)⟩
  | case2 loc target name link isRemovable other ih
  | case4 loc target key link isRemovable other ih
  | case6 loc target args link isPure kind other ih =>
    obtain ⟨inner, found, rfl⟩ := Option.map_eq_some_iff.mp inserted
    obtain ⟨nameLoc, flag, rooted⟩ := ih found (Bool.and_eq_true_iff.mp taken).2
    -- The target is a link, so it is further in that the chain starts.
    have notName : ¬ target.unwrapped.isIdentifier := by
      simp [isIdentifier_of_isLink (isLink_of_insertChain? found).1]
    exact ⟨nameLoc, flag, (if_neg notName).trans rooted⟩
  | case7 => cases inserted

section

variable {ref : Ref} (looksUp : host.LooksUp ref)
include looksUp

/-- A new start at the name skips the link exactly where the name is nullish. -/
theorem follow_startOfChain {target : Expr} {loc : Loc} {isRemovable : Bool} {w : W}
    (named : target.unwrapped = identifier loc ref isRemovable false) (link : ChainLink)
    (rest : Referent → Value → Run W Referent) :
    host.follow .start (target.refer host) rest w =
      if (host.lookup ref w).isNullish then (pure none : Run W (Option Referent)) w
      else host.follow link (target.refer host) rest w := by
  -- Both links stand at the name, and only the new start looks whether it is nullish.
  rw [refer_of_unwrapped named, host.follow_name looksUp, host.follow_name looksUp]
  by_cases nullish : (host.lookup ref w).isNullish <;> simp [nullish]

/-- A link behind the new start is skipped exactly where the name is nullish. -/
theorem follow_insideChain {target inner : Expr} {link : ChainLink} {w : W}
    (rest : Referent → Value → Run W Referent)
    (inside : inner.refer host w =
      if (host.lookup ref w).isNullish then (pure none : Run W (Option Referent)) w
      else target.refer host w)
    (rooted : target.StartsAt ref) (joins : (link != .plain || !target.mayBeCut) = true)
    (targetFollowed : target.isFollowedBy host) :
    host.follow link.behindStart (inner.refer host) rest w =
      if (host.lookup ref w).isNullish then (pure none : Run W (Option Referent)) w
      else host.follow link (target.refer host) rest w := by
  split
  · -- The inner part of the chain is skipped, and the link with it.
    rename_i nullish
    rw [if_pos nullish] at inside
    exact host.follow_none rest (by cases link <;> simp [ChainLink.behindStart]) inside
  · rename_i there
    rw [if_neg there] at inside
    refine host.follow_behindStart rest inside ?_
    -- A link outside of the chain never had a target that was cut short.
    simp only [Bool.or_eq_true, bne_iff_ne, Bool.not_eq_true'] at joins
    exact joins.imp_right fun uncut =>
      refer_ne_none looksUp rooted targetFollowed uncut (by simpa using there)

/--
An optional chain refers to nothing where its name is nullish, and to what it did otherwise.

The test that the chain takes in looks the name up in the same world.
-/
theorem refer_insertChain? {e guard chain : Expr} {w : W}
    (inserted : e.insertChain? guard = some chain) (named : guard.identifierRef? = some ref)
    (rooted : e.StartsAt ref) (followed : e.isFollowedBy host) (unbroken : e.isUnbroken) :
    chain.refer host w =
      if (host.lookup ref w).isNullish then (pure none : Run W (Option Referent)) w
      else e.refer host w := by
  obtain ⟨nameLoc, flag, rooted⟩ := rooted
  fun_induction insertChain? e guard generalizing chain with
  | case1 loc target name link isRemovable alike
  | case3 loc target key link isRemovable alike
  | case5 loc target args link isPure kind alike =>
    cases inserted
    have seen := (Bool.and_eq_true_iff.mp followed).1
    rw [Bool.not_eq_true'] at seen
    -- This link gets the new start.
    have isName := (unwrapped_of_looksLike named alike).1
    have atName := Option.some.inj ((if_pos isName).symm.trans rooted)
    simp only [refer_dot, refer_index, refer_call, seen]
    exact follow_startOfChain looksUp atName link _
  | case2 loc target name link isRemovable other ih
  | case4 loc target key link isRemovable other ih
  | case6 loc target args link isPure kind other ih =>
    obtain ⟨inner, found, rfl⟩ := Option.map_eq_some_iff.mp inserted
    obtain ⟨seen, targetFollowed⟩ := Bool.and_eq_true_iff.mp followed
    obtain ⟨joins, targetUnbroken⟩ := Bool.and_eq_true_iff.mp unbroken
    rw [Bool.not_eq_true'] at seen
    -- The new start is further in, and this link joins its chain.
    have notName : ¬ target.unwrapped.isIdentifier := by
      simp [isIdentifier_of_isLink (isLink_of_insertChain? found).1]
    have rooted := (if_neg notName).symm.trans rooted
    simp only [refer_dot, refer_index, refer_call, seen]
    exact follow_insideChain looksUp _ (ih found targetFollowed targetUnbroken rooted)
      ⟨nameLoc, flag, rooted⟩ joins targetFollowed
  | case7 => cases inserted

end

end Expr

end EcmaPrune
