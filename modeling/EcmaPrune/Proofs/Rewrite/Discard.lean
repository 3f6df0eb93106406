import EcmaPrune.Proofs.Rewrite.ConditionParts
import EcmaPrune.Proofs.Rewrite.Kept

/-! Discarding an expression keeps its effects. -/

namespace EcmaPrune

variable {W : Type}

namespace Expr

/-- A call whose target is written out as a function. -/
def callsLiteral : Expr → Bool
  | call _ (function ..) .. | call _ (arrow ..) .. => true
  | _ => false

/-- An object literal without spreading in which a computed key is of a type that is not known. -/
def hasUnknownKey : Expr → Bool
  | object _ properties =>
    !(properties.any fun p => p.kind == .spread) &&
      properties.any fun p => p.isComputed && p.key.primitiveType == .unknown
  | _ => false

/-- What an expression is asked for that is discarded, and each of its parts with it. -/
structure Ordinary (e : Expr) : Prop where
  notClass : e.isClass = false
  inScope : e.mustKeepInWith = false
  notImmediate : e.callsLiteral = false
  keysKnown : e.hasUnknownKey = false

/--
What else is asked for wherever discarding gets, so that nothing is dropped that runs.

Annotated accesses are dropped together with their keys, and chains take in tests of names against
null where engines know chains.
-/
structure Discardable (cx : DiscardContext) (e : Expr) : Prop where
  /-- The key of an annotated access that is dropped makes no call that defines a class field. -/
  keyRuns : ∀ loc target key link, e = index loc target key link true →
    key.isRemovable cx.unbound → key.Throughout fun part => part.isFieldCall = false
  /-- A chain that takes in the test of the only branch that is left may do so. -/
  chains : ∀ b rest, e.onlyRest? cx = some (b, rest) → TakesTest cx b.op b.test rest

/-- Rewriting conditions brings in nothing that is out of the ordinary. -/
theorem conditionSafe_ordinary : ConditionSafe Ordinary where
  boolean _ _ := ⟨rfl, rfl, rfl, rfl⟩
  not _ _ := ⟨rfl, rfl, rfl, rfl⟩
  comma _ _ _ := ⟨rfl, rfl, rfl, rfl⟩
  logical _ _ _ _ := ⟨rfl, rfl, rfl, rfl⟩
  conditional _ _ _ _ := ⟨rfl, rfl, rfl, rfl⟩
  negated _ _ _ _ _ := ⟨rfl, rfl, rfl, rfl⟩

/-- What discarding gets to in an ordinary expression is ordinary itself. -/
theorem throughout_ordinary_of_mem_visited {cx : DiscardContext} {e part : Expr}
    (ordinary : e.Throughout Ordinary) (member : part ∈ e.visited cx) :
    part.Throughout Ordinary := by
  rcases mem_visited_cases member with
    ⟨loc, target, args, link, kind, rfl, isValue⟩ | ⟨original, held, isPart⟩
  · -- No function literal is called.
    have notImmediate := ordinary.here.notImmediate
    cases target with
    | arrow => cases notImmediate
    | _ => cases isValue
  · have originalAll := ordinary.inside held
    rcases isPart with rfl | rfl
    · exact originalAll
    · exact throughout_simplifyCondition conditionSafe_ordinary originalAll

/-- An ordinary expression that can be discarded is safe to discard. -/
theorem discardSafe_of_discardable {host : Host W} {cx : DiscardContext}
    (trusts : host.Trusts cx.unbound) {e : Expr} (ordinary : e.Throughout Ordinary)
    (discardable : e.Discardable cx) : DiscardSafe host cx id e where
  classRuns := by
    rintro loc definition rfl
    cases ordinary.here.notClass
  inScope b member _ := (ordinary.inside (value_mem_parts_of_mem_branches member)).here.inScope
  notDeferred := by
    have notImmediate := ordinary.here.notImmediate
    unfold isDeferred
    split
    · rename_i loc target link kind
      cases target with
      | function | arrow => cases notImmediate
      | _ => rfl
    · rfl
  keysPlain := by
    rintro loc properties rfl notSpread p held computed unknown
    have keysKnown := ordinary.here.keysKnown
    have := notSpread p held
    simp_all [hasUnknownKey]
  keyRuns := by
    rintro loc target key link rfl keyRemovable
    -- The key is removable and makes no call that is to be seen, so it is silent.
    have keyOrdinary : key.Throughout Ordinary := ordinary.inside (by simp [parts])
    have keyAll := keyOrdinary.and (discardable.keyRuns loc target key link rfl keyRemovable)
    refine Run.ignored_of_silent (eval_silent_of_isRemovable trusts (keyAll.imp ?_) keyRemovable)
    rintro part ⟨here, notFieldCall⟩
    exact ⟨here.notClass, here.inScope, by simp [notFieldCall]⟩
  chains := discardable.chains

/-- What is left of an ordinary expression runs as the expression. -/
theorem isKeptBy_of_discardable {host : Host W} {cx : DiscardContext}
    (trusts : host.Trusts cx.unbound) (loud : host.fieldCallsAreQuiet = false) {e : Expr}
    (ordinary : e.Throughout Ordinary) (discardable : e.ThroughoutVisited cx (Discardable cx)) :
    e.IsKeptBy host cx id := by
  have all : e.ThroughoutVisited cx fun e =>
      DiscardSafe host cx id e ∧ e.callsLiteral = false := by
    induction discardable with
    | intro here _ ih =>
      exact .intro ⟨discardSafe_of_discardable trusts ordinary here, ordinary.here.notImmediate⟩
        fun part member => ih part member (throughout_ordinary_of_mem_visited ordinary member)
  refine isKeptBy_of_safe isTranslation_id trusts loud (fun e safe => safe.1)
    (fun e value spelled safe _ => ?_) all
  -- No function literal is called.
  cases e with
  | call loc target =>
    cases target with
    | function | arrow => cases safe.2
    | _ => simp [inPlace?, callSpelledOut?] at spelled
  | _ => cases spelled

-- The equations of the recursion are worked out once, for the examples below.
attribute [local simp] discard

/--
Discarding the value of an expression keeps its effects.

In every world, what is left of the expression makes the same events happen in the same order,
leaves the same world and throws the same, if anything.
-/
theorem discard_keepsEffects (host : Host W) (cx : DiscardContext) {e : Expr}
    (ordinary : e.Throughout Ordinary) (discardable : e.ThroughoutVisited cx (Discardable cx)) :
    restEffects (host.trusting cx.unbound false) (e.discard cx) =
      e.effects (host.trusting cx.unbound false) := by
  have kept := isKeptBy_of_discardable (host.trusting_trusts cx.unbound false) rfl ordinary
    discardable
  rwa [IsKeptBy, Option.map_id] at kept

/-- A test against null is taken in by the chain behind it. -/
theorem discard_keepsEffects_chain :
    let name := identifier default default false false
    let test := binary default .inequality name (null default)
    let links := dot default name "x" .plain false
    let e := binary default .logicalAnd test links
    let cx : DiscardContext := ⟨true, fun _ => false⟩
    let host := (default : Host Unit).trusting cx.unbound false
    e.Throughout Ordinary ∧ e.ThroughoutVisited cx (Discardable cx) ∧
      e.discard cx = some (dot default name "x" .start false) ∧
      restEffects host (e.discard cx) = e.effects host := by
  intro name test links e cx host
  have nameAll : name.Throughout Ordinary := throughout_of_parts_eq_nil rfl ⟨rfl, rfl, rfl, rfl⟩
  have nullAll : (null default).Throughout Ordinary :=
    throughout_of_parts_eq_nil rfl ⟨rfl, rfl, rfl, rfl⟩
  have testAll : test.Throughout Ordinary :=
    throughout_binary.mpr ⟨⟨rfl, rfl, rfl, rfl⟩, nameAll, nullAll⟩
  have linksAll : links.Throughout Ordinary :=
    .intro ⟨rfl, rfl, rfl, rfl⟩ (List.forall_mem_singleton.mpr nameAll)
  have ordinary : e.Throughout Ordinary :=
    throughout_binary.mpr ⟨⟨rfl, rfl, rfl, rfl⟩, testAll, linksAll⟩
  -- The links are all that is discarded in turn, and they stay.
  have single : e.branches = [⟨test, true, links⟩] := rfl
  have left : Branch.rest cx ⟨test, true, links⟩ = some links := discard.eq_def cx _
  have discardable : e.ThroughoutVisited cx (Discardable cx) := by
    refine .intro ⟨by simp [e], fun b rest found => ?_⟩ fun part member => ?_
    · obtain ⟨rfl, rfl⟩ : ⟨test, true, links⟩ = b ∧ links = rest := by
        simpa [onlyRest?, single, left] using found
      exact fun _ _ _ _ => rfl
    · rw [visited_logical cx default rfl, single] at member
      obtain ⟨_, rfl⟩ : _ ∧ links = part := by simpa [visitedBranches, left] using member
      refine .intro ⟨by simp [links], ?_⟩ ?_
      · rintro _ _ ⟨⟩
      · rintro _ ⟨⟩
  refine ⟨ordinary, discardable, ?_, discard_keepsEffects default cx ordinary discardable⟩
  rw [discard_logical _ _ rfl, discard]
  rfl

/--
Discarding an ordinary expression may lose effects where one of the other conditions is not met.

An annotated access is dropped together with a call in its key that defines a class field. A chain
that takes in a test of its name goes on behind an annotated access that did not need the name, and
skips an access outside of the chain that throws.
-/
theorem discard_losesEffects :
    let name := identifier default default false false
    let ifThere := fun chain =>
      binary default .logicalAnd (binary default .inequality name (null default)) chain
    let fieldCall := index default name (call default name [] .plain false .publicField) .plain true
    let annotated := ifThere (dot default (dot default name "x" .plain true) "y" .plain false)
    let cutShort := ifThere (dot default
      (dot default (dot default name "x" .plain false) "y" .start false) "z" .plain false)
    let losesEffects := fun e : Expr => e.Throughout Ordinary ∧ ∃ host : Host Unit,
      restEffects (host.trusting (fun _ => false) false) (e.discard ⟨true, fun _ => false⟩) ≠
        e.effects (host.trusting (fun _ => false) false)
    losesEffects fieldCall ∧ losesEffects annotated ∧ losesEffects cutShort := by
  intro name ifThere fieldCall annotated cutShort losesEffects
  -- In one world the name is a function, of which every property is `undefined`.
  let there : Host Unit :=
    { (default : Host Unit) with lookup := fun _ _ => .object 0, isCallable := fun _ => true }
  have nameOrdinary : name.Throughout Ordinary :=
    throughout_of_parts_eq_nil rfl ⟨rfl, rfl, rfl, rfl⟩
  -- None of the three is out of the ordinary.
  have dotOrdinary : ∀ target property link isRemovable, target.Throughout Ordinary →
      (dot default target property link isRemovable).Throughout Ordinary :=
    fun target property link isRemovable targetOrdinary =>
      .intro ⟨rfl, rfl, rfl, rfl⟩ (List.forall_mem_singleton.mpr targetOrdinary)
  have ifThereOrdinary : ∀ chain, chain.Throughout Ordinary →
      (ifThere chain).Throughout Ordinary := by
    intro chain chainOrdinary
    have nullOrdinary : (null default).Throughout Ordinary :=
      throughout_of_parts_eq_nil rfl ⟨rfl, rfl, rfl, rfl⟩
    exact throughout_binary.mpr ⟨⟨rfl, rfl, rfl, rfl⟩,
      throughout_binary.mpr ⟨⟨rfl, rfl, rfl, rfl⟩, nameOrdinary, nullOrdinary⟩, chainOrdinary⟩
  refine ⟨⟨?_, there, fun same => ?_⟩, ⟨?_, default, fun same => ?_⟩, ⟨?_, there, fun same => ?_⟩⟩
  · have callOrdinary : (call default name [] .plain false .publicField).Throughout Ordinary :=
      .intro ⟨rfl, rfl, rfl, rfl⟩ (List.forall_mem_singleton.mpr nameOrdinary)
    exact .intro ⟨rfl, rfl, rfl, rfl⟩ (List.forall_mem_cons.mpr
      ⟨nameOrdinary, List.forall_mem_singleton.mpr callOrdinary⟩)
  · -- The call does not happen any more.
    rw [discard] at same
    exact absurd (congrArg (fun run => (run ()).events.length) same) (by decide)
  · exact ifThereOrdinary _ (dotOrdinary _ _ _ _ (dotOrdinary _ _ _ _ nameOrdinary))
  · -- The property of an annotated access is read although the test fails.
    rw [discard_logical _ _ rfl, discard] at same
    exact absurd (congrArg (fun run => (run ()).result.isOk) same) (by decide)
  · exact ifThereOrdinary _
      (dotOrdinary _ _ _ _ (dotOrdinary _ _ _ _ (dotOrdinary _ _ _ _ nameOrdinary)))
  · -- Nothing is thrown any more.
    rw [discard_logical _ _ rfl, discard] at same
    exact absurd (congrArg (fun run => (run ()).result.isOk) same) (by decide)

end Expr

end EcmaPrune
