import EcmaPrune.Proofs.Rewrite.Condition
import EcmaPrune.Proofs.Rewrite.Translation
import EcmaPrune.Proofs.Rewrite.Visited

/-! What is left of an expression keeps its effects, under any translation of both. -/

namespace EcmaPrune

variable {W : Type}

namespace Expr

/-- An asynchronous function whose body is one expression, of which the value is not returned. -/
def dropsValue : Expr → Bool
  | arrow _ [] [.expr ..] true _ => true
  | _ => false

/-- A call that is rewritten so that its function returns the value of its expression. -/
def isDeferred : Expr → Bool
  | call _ target [] _ false _ => target.dropsValue
  | _ => false

/--
What an expression that is discarded is asked for, so that nothing is dropped that runs.

Each condition is about one way of dropping or joining something, and asks for nothing where that
does not happen. What a part runs is what its translation runs.
-/
structure DiscardSafe (host : Host W) (cx : DiscardContext) (f : Expr → Expr) (e : Expr) :
    Prop where
  /-- A class that is dropped does nothing when it is defined. -/
  classRuns : ∀ loc definition, e = classExpr loc definition →
    definition.isRemovable cx.unbound → e.effects host = pure ()
  /-- A name that is dropped because of its test is not one that an object may provide. -/
  inScope : ∀ b ∈ e.branches, b.isSpared cx → b.value.mustKeepInWith = false
  notDeferred : e.isDeferred = false
  /-- A computed key of a type that is not known converts without anybody seeing it. -/
  keysPlain : ∀ loc properties, e = object loc properties → (∀ p ∈ properties, p.kind ≠ .spread) →
    ∀ p ∈ properties, p.isComputed → p.key.primitiveType = .unknown →
      ((f p.key).eval host).Always Value.IsPlain
  /-- The key of an annotated access that is dropped does nothing. -/
  keyRuns : ∀ loc target key link, e = index loc target key link true →
    key.isRemovable cx.unbound → (f key).effects host = pure ()
  /-- A chain that takes in the test of the only branch that is left may do so. -/
  chains : ∀ b rest, e.onlyRest? cx = some (b, rest) → TakesTest cx b.op b.test rest

/-- The call of a name is safe to discard, as it stays as it is. -/
theorem throughoutVisited_callName (host : Host W) (cx : DiscardContext) (f : Expr → Expr)
    {name : Expr} (isName : name.isIdentifier) (loc : Loc) (link : ChainLink) (kind : CallKind) :
    (call loc name [] link false kind).ThroughoutVisited cx (DiscardSafe host cx f) := by
  cases name with
  | identifier =>
    -- A call has no branches and no keys, and nothing of this one is discarded in turn.
    refine .intro ⟨?_, ?_, rfl, ?_, ?_, ?_⟩ ?_
    · rintro _ _ ⟨⟩
    · rintro _ ⟨⟩
    · rintro _ _ ⟨⟩
    · rintro _ _ _ _ ⟨⟩
    · rintro _ _ ⟨⟩
    · rintro _ ⟨⟩
  | _ => cases isName

-- The equations of the recursion are worked out once, for all the proofs below.
attribute [local simp] discard

/-- What is neither spelled out in its place nor deferred is called as before. -/
theorem discard_call_stays (cx : DiscardContext) {loc : Loc} {target : Expr} {args : List Expr}
    {link : ChainLink} {kind : CallKind}
    (stays : (call loc target args link false kind).inPlace? = none)
    (notDeferred : (call loc target args link false kind).isDeferred = false) :
    (call loc target args link false kind).discard cx =
      some (call loc target args link false kind) := by
  cases args with
  | cons arg args => exact discard_call_cons cx loc target arg args link kind
  | nil =>
    have keepsValue : target.dropsValue = false := notDeferred
    have unknown : target.callSpelledOut? loc = none := stays
    refine (discard.eq_def cx _).trans ?_
    dsimp only
    rw [if_neg (by simp)]
    cases target with
    | function funcLoc func =>
      rw [callSpelledOut?] at unknown
      split at unknown
      · cases unknown
      · -- The function has parameters or does something.
        rename_i something
        exact if_neg something
    | arrow arrowLoc params statements isAsync prefersExpr =>
      -- An arrow function with at most one statement is taken apart.
      rcases params with _ | ⟨param, params⟩
      · rcases statements with _ | ⟨first, _ | ⟨second, others⟩⟩
        · cases unknown
        · cases first with
          | expr stmtLoc value isGlue =>
            cases isAsync with
            | false => cases unknown
            | true => simp [dropsValue] at keepsValue
          | returnValue stmtLoc value =>
            cases isAsync <;> cases value <;> first | rfl | cases unknown
          | _ => rfl
        · cases first with
          | returnValue stmtLoc value => cases value <;> rfl
          | _ => rfl
      · rfl
    | _ => rfl

/-- What is left of an expression runs as the expression does, once both are translated. -/
def IsKeptBy (host : Host W) (cx : DiscardContext) (f : Expr → Expr) (e : Expr) : Prop :=
  restEffects host ((e.discard cx).map f) = (f e).effects host

section

variable {host : Host W} {cx : DiscardContext} {f : Expr → Expr} (translation : IsTranslation f)
  (loc : Loc)

/-- Nothing has to be left of an expression that nobody sees. -/
theorem isKeptBy_of_silent {e : Expr} (gone : e.discard cx = none)
    (silent : ∀ w, ((f e).eval host).Silent w) : e.IsKeptBy host cx f := by
  rw [IsKeptBy, gone]
  exact (Run.ignored_of_silent silent).symm

/-- An expression that stays as it is runs as before. -/
theorem isKeptBy_of_stays {e : Expr} (stays : e.discard cx = some e) : e.IsKeptBy host cx f := by
  rw [IsKeptBy, stays]
  rfl

/-- What is left of an expression that may be absent runs as the expression. -/
theorem restEffects_bind_discard {e : Option Expr}
    (kept : ∀ value ∈ e, value.IsKeptBy host cx f) :
    restEffects host ((e.bind (discard cx)).map f) = (evalOption host (e.map f)).ignored := by
  cases e with
  | none => simp [evalOption_none, restEffects]
  | some value => rw [Option.map_some, evalOption_some]; exact kept value rfl

include translation

/-- What is left of arguments runs as they do, where spreading them means running through them. -/
theorem restEffects_discardArgs {args : List Expr}
    (inside : ∀ arg ∈ args, arg.IsKeptBy host cx f) :
    restEffects host ((sequence (args.map fun arg =>
        match arg.spreadArgument? with
        | some kept => some kept
        | none => arg.discard cx)).map f) =
      (evalList host (args.map f)).ignored := by
  rw [ignored_evalList, translation.sequence_map, List.map_map]
  refine restEffects_sequence_map host fun arg member => ?_
  split
  · rename_i kept spreads
    -- A spread argument is put into an array, which runs through it as well.
    cases arg with
    | spread loc value =>
      cases spreads
      rw [Option.map_some, translation.array, List.map_singleton, restEffects, effects_array,
        List.map_singleton, Run.all, Run.all, bind_pure_unit]
      rfl
    | _ => cases spreads
  · exact inside arg member

theorem isKeptBy_classExpr {definition : Class}
    (safe : DiscardSafe host cx f (classExpr loc definition)) :
    (classExpr loc definition).IsKeptBy host cx f := by
  by_cases dropped : definition.isRemovable cx.unbound
  · -- What counts as removable has to do nothing.
    rw [IsKeptBy, discard, if_pos dropped, translation.classExpr]
    exact (safe.classRuns loc definition rfl dropped).symm
  · exact isKeptBy_of_stays (by rw [discard, if_neg dropped])

theorem isKeptBy_array {items : List Expr} (inside : ∀ item ∈ items, item.IsKeptBy host cx f) :
    (array loc items).IsKeptBy host cx f := by
  rw [IsKeptBy, discard, translation.array]
  split
  · -- The literal stays for what is spread into it.
    rw [Option.map_some, translation.array, restEffects, effects_array, effects_array,
      List.map_filterMap, List.map_map]
    exact Run.all_filterMap fun item member =>
      (restEffects_eq_elim host _).trans (inside item member)
  · rw [effects_array, translation.sequence_map, List.map_map]
    exact restEffects_sequence_map host inside

theorem isKeptBy_object {properties : List Property}
    (keysPlain : (∀ p ∈ properties, p.kind ≠ .spread) → ∀ p ∈ properties, p.isComputed →
      p.key.primitiveType = .unknown → ((f p.key).eval host).Always Value.IsPlain)
    (inside : ∀ part ∈ (object loc properties).visited cx, part.IsKeptBy host cx f) :
    (object loc properties).IsKeptBy host cx f := by
  have value : ∀ p ∈ properties, p.kind ≠ .spread →
      restEffects host ((p.value.bind (discard cx)).map f) =
        (evalOption host (p.mapExprs f).value).ignored :=
    fun p held notSpread => restEffects_bind_discard fun value isValue =>
      inside value (mem_visited_object_value cx loc held notSpread isValue)
  rw [IsKeptBy, discard_object, translation.object]
  split
  · -- The literal stays for what is spread into it, with its members trimmed.
    rw [Option.map_some, translation.object, restEffects, effects_object, effects_object,
      List.map_filterMap, List.map_map]
    refine Run.all_filterMap fun p held => ?_
    rw [translation.trimProperty]
    exact eval_trimProperty host fun notSpread => value p held notSpread
  · rename_i noSpread
    have plain : ∀ p ∈ properties, p.kind ≠ .spread := by simpa using noSpread
    -- Each member is left as its key, if that is computed, and its value.
    have key : ∀ p ∈ properties, restEffects host
        ((if p.isComputed then discardKey p.key (p.key.discard cx) else none).map f) =
          (p.mapExprs f).evalKey host := by
      intro p held
      rw [Property.evalKey]
      cases computed : p.isComputed with
      | true =>
        have stillComputed : (p.mapExprs f).isComputed := computed
        rw [if_pos rfl, translation.discardKey, if_pos stillComputed]
        refine restEffects_discardKey host ?_ fun known => inside p.key ?_
        · rw [translation.primitiveType]
          exact keysPlain plain p held computed
        · -- Only a key of a known type is discarded.
          rw [translation.primitiveType] at known
          rw [visited, if_neg noSpread]
          exact List.mem_flatMap.mpr ⟨p, held, by simp [computed, known]⟩
      | false =>
        rw [if_neg (by simp), if_neg (by simp [Property.mapExprs, computed])]
        rfl
    rw [translation.sequence, restEffects_sequence, effects_object, List.map_flatMap,
      List.map_flatMap, Run.all_flatMap, List.map_map]
    refine congrArg Run.all (List.map_congr_left fun p held => ?_)
    have notSpread : (p.mapExprs f).kind ≠ .spread := plain p held
    rw [Function.comp_apply, Property.eval, if_neg notSpread, ← key p held,
      ← value p held (plain p held)]
    simp [Run.all]

theorem isKeptBy_template {substitutions : List TemplatePart} (head : List UInt16)
    (inside : ∀ part ∈ (template loc none head substitutions).visited cx,
      part.IsKeptBy host cx f) :
    (template loc none head substitutions).IsKeptBy host cx f := by
  -- Each substitution comes with what is left of its value.
  let readPart := fun part : TemplatePart => (part.mapExpr f, (part.value.discard cx).map f)
  have fst : (substitutions.map readPart).map Prod.fst =
      substitutions.map (TemplatePart.mapExpr f) := by simp [readPart]
  rw [IsKeptBy, discard, translation.template, translation.sequence, translation.discardParts,
    List.map_map, List.map_nil, ← fst, Option.map_none]
  refine restEffects_discardParts host loc head fun read member known => ?_
  obtain ⟨part, held, rfl⟩ := List.mem_map.mp member
  have known : part.value.primitiveType ≠ .unknown := by
    rwa [← translation.primitiveType]
  exact inside part.value (by simpa [visited, known] using ⟨part, held, rfl⟩)

theorem isKeptBy_unary {op : Operator} {value : Expr} {fromIdentifier : Bool}
    (inside : ∀ part ∈ (unary loc op value fromIdentifier).visited cx, part.IsKeptBy host cx f) :
    (unary loc op value fromIdentifier).IsKeptBy host cx f := by
  cases op with
  | void | logicalNot =>
    rw [IsKeptBy, discard, translation.unary,
      effects_unary_silent host loc rfl fun _ w => Run.silent_pure _ w]
    exact inside value (by simp [visited])
  | typeof =>
    rw [IsKeptBy, discard, translation.unary]
    split
    · -- The type of a bare name is looked up.
      rename_i bare
      obtain ⟨rfl, isName⟩ := Bool.and_eq_true_iff.mp bare
      cases value with
      | identifier nameLoc ref isRemovable mustKeepInWith =>
        rw [translation.leaf rfl]
        refine (Run.ignored_of_silent fun w => ?_).symm
        rw [eval_unary_typeof_identifier host loc rfl]
        exact Run.silent_inWorld (Run.silent_pure _ w)
      | _ => cases isName
    · rename_i other
      have notBare : (if fromIdentifier then (f value).identifierRef? else none) = none := by
        have same := translation.isIdentifier value
        generalize f value = read at same ⊢
        cases read <;> simp_all [isIdentifier, identifierRef?]
      rw [effects, eval_unary_typeof host loc notBare, Run.ignored_bind_silent (Run.always_true _)]
      · exact inside value (by simp [visited, other])
      · exact fun _ _ w => Run.silent_pure _ w
  | _ =>
    refine isKeptBy_of_stays ?_
    rw [discard]
    all_goals
      intro same
      cases same

theorem isKeptBy_binary {op : Operator} (other : op.isAndOr = false) {left right : Expr}
    (inside : ∀ part ∈ (binary loc op left right).visited cx, part.IsKeptBy host cx f) :
    (binary loc op left right).IsKeptBy host cx f := by
  have pair : left.IsKeptBy host cx f → right.IsKeptBy host cx f →
      restEffects host ((sequence [left.discard cx, right.discard cx]).map f) =
        (f left).effects host >>= fun _ => (f right).effects host := by
    intro leftKept rightKept
    rw [translation.sequence, List.map_cons, List.map_singleton, restEffects_pair]
    exact congrArg₂ (· >>= fun _ => ·) leftKept rightKept
  cases op with
  | logicalAnd | logicalOr => cases other
  | comma =>
    rw [IsKeptBy, discard, translation.binary, effects_comma]
    exact pair (inside left (by simp [visited])) (inside right (by simp [visited]))
  | strictEquality | strictInequality =>
    rw [IsKeptBy, discard, translation.binary, effects_binary_silent host loc rfl
      (Run.always_true _) (Run.always_true _) fun _ _ _ _ w => Run.silent_pure _ w]
    exact pair (inside left (by simp [visited])) (inside right (by simp [visited]))
  | equality | inequality =>
    rw [IsKeptBy, discard]
    split
    · rename_i comparesPrimitives
      have known : ((f left).producesPrimitive && (f right).producesPrimitive) ||
          (f left).strictMayBeLoose (f right) := by
        simpa [strictMayBeLoose, translation.producesPrimitive, translation.primitiveType]
          using comparesPrimitives
      obtain ⟨leftPlain, rightPlain⟩ := eval_plain_of_comparesPrimitives host known
      rw [translation.binary, effects_binary_silent host loc rfl leftPlain rightPlain
        fun first second leftHeld rightHeld w => ?_]
      · exact pair (inside left (by simp [visited, comparesPrimitives]))
          (inside right (by simp [visited, comparesPrimitives]))
      · simp only [Host.applyBinary, host.looseEq_of_primitive leftHeld rightHeld, pure_bind]
        exact Run.silent_pure _ w
    · rfl
  | nullishCoalescing =>
    have rightKept := inside right (by simp [visited])
    rw [IsKeptBy] at rightKept ⊢
    rw [discard, translation.binary, effects_coalesce, ← rightKept]
    split
    · -- The operation stays as it is, with less on its right side.
      rename_i rest found
      rw [found, Option.map_some, Option.map_some, translation.logicalOrChain,
        logicalOrChain_nullishCoalescing, restEffects, effects_coalesce]
      rfl
    · -- The right side is silent, so it does not matter whether it runs.
      rename_i gone
      rw [gone]
      simp only [Option.map_none, restEffects, ite_self]
      exact inside left (by simp [visited, gone])
  | addition =>
    rw [IsKeptBy, discard, translation.discardSum]
    exact effects_discardSum host _
  | _ =>
    refine isKeptBy_of_stays ?_
    rw [discard]
    all_goals
      intro same
      cases same

variable (trusts : host.Trusts cx.unbound)
include trusts

theorem isKeptBy_identifier {ref : Ref} {isRemovable mustKeepInWith : Bool} :
    (identifier loc ref isRemovable mustKeepInWith).IsKeptBy host cx f := by
  by_cases there : !mustKeepInWith && (isRemovable || !cx.unbound ref)
  · -- The name is declared, or annotated as being there.
    refine isKeptBy_of_silent (by rw [discard, if_pos there]) fun w => ?_
    obtain ⟨rfl, known⟩ : mustKeepInWith = false ∧ (isRemovable || !cx.unbound ref) := by
      simpa using there
    rw [translation.leaf rfl]
    exact eval_identifier_silent trusts (by rw [known, Bool.true_or])
  · exact isKeptBy_of_stays (by rw [discard, if_neg there])

theorem isKeptBy_dot {target : Expr} {name : String} {link : ChainLink} {isRemovable : Bool} :
    (dot loc target name link isRemovable).IsKeptBy host cx f := by
  cases isRemovable with
  | true =>
    -- Nobody sees an annotated access.
    refine isKeptBy_of_silent (by rw [discard, if_pos rfl]) fun w => ?_
    rw [translation.dot, eval_dot_annotated host loc trusts.annotations]
    exact Run.silent_inWorld (Run.silent_pure _ w)
  | false => exact isKeptBy_of_stays (by rw [discard, if_neg (by simp)])

theorem isKeptBy_pureCall {target : Expr} {args : List Expr} {link : ChainLink} {kind : CallKind}
    (inside : ∀ arg ∈ args, arg.IsKeptBy host cx f) :
    (call loc target args link true kind).IsKeptBy host cx f := by
  have stays : (call loc target args link true kind).inPlace? = none := rfl
  -- Of a call that is marked as pure only the arguments run.
  have quiet : host.isQuietCall true kind := by simp [Host.isQuietCall, trusts.annotations]
  rw [IsKeptBy, discard_call_pure, translation.call stays, effects, eval_call_quiet host loc quiet,
    Run.ignored_bind_silent (Run.always_true _)]
  · exact restEffects_discardArgs translation inside
  · exact fun _ _ w => Run.silent_inWorld (Run.silent_pure _ w)

theorem isKeptBy_new {target : Expr} {args : List Expr} {isPure : Bool}
    (inside : ∀ arg ∈ (new loc target args isPure).visited cx, arg.IsKeptBy host cx f) :
    (new loc target args isPure).IsKeptBy host cx f := by
  cases isPure with
  | true =>
    -- Of a construction that is marked as pure only the arguments run.
    rw [IsKeptBy, discard, if_pos rfl, translation.new, effects,
      eval_new_quiet host loc trusts.annotations, Run.ignored_bind_silent (Run.always_true _)]
    · exact restEffects_discardArgs translation inside
    · exact fun _ _ w => Run.silent_inWorld (Run.silent_pure _ w)
  | false => exact isKeptBy_of_stays (by rw [discard, if_neg (by simp)])

theorem isKeptBy_index {target key : Expr} {link : ChainLink} {isRemovable : Bool}
    (safe : DiscardSafe host cx f (index loc target key link isRemovable)) :
    (index loc target key link isRemovable).IsKeptBy host cx f := by
  by_cases dropped : isRemovable && key.isRemovable cx.unbound
  · obtain ⟨rfl, keyRemovable⟩ := Bool.and_eq_true_iff.mp dropped
    -- Of the access only the key would run.
    rw [IsKeptBy, discard, if_pos dropped, translation.index, effects,
      eval_index_annotated host loc trusts.annotations, Run.ignored_bind_silent (Run.always_true _)]
    · exact (safe.keyRuns loc target key link rfl keyRemovable).symm
    · exact fun _ _ w => Run.silent_inWorld (Run.silent_pure _ w)
  · exact isKeptBy_of_stays (by rw [discard, if_neg dropped])

/-- What is left of a branch runs as the branch does where its test lets it run. -/
theorem truth_bind_branch (b : Branch)
    (inScope : b.isSpared cx → b.value.mustKeepInWith = false)
    (kept : b.isSpared cx = false → b.value.IsKeptBy host cx f) (other : Run W Unit) :
    ((f b.test).truth host >>= fun holds =>
      if holds = b.onYes then restEffects host ((b.rest cx).map f) else other) =
    (f b.test).truth host >>= fun holds =>
      if holds = b.onYes then (f b.value).effects host else other := by
  -- The branch is spared before or after it is translated.
  have spared : (f b.value).isGuardedBy (f b.test) b.onYes cx.unbound = b.isSpared cx :=
    translation.isGuardedBy ..
  have rest : (b.rest cx).map f =
      if (f b.value).isGuardedBy (f b.test) b.onYes cx.unbound then none
      else (b.value.discard cx).map f := by
    rw [spared, Branch.rest]
    cases b.isSpared cx <;> rfl
  rw [rest]
  refine truth_bind_rest trusts (fun guarded => ?_) (fun notGuarded => ?_) other
  · rw [spared] at guarded
    rw [translation.guarded guarded]
    exact inScope guarded
  · rw [spared, Bool.not_eq_true] at notGuarded
    exact kept notGuarded

/-- What is left of both branches of a choice runs as they do. -/
theorem truth_bind_branches {test yes no : Expr}
    (inScope : ∀ b ∈ [(⟨test, true, yes⟩ : Branch), ⟨test, false, no⟩],
      b.isSpared cx → b.value.mustKeepInWith = false)
    (kept : ∀ b ∈ [(⟨test, true, yes⟩ : Branch), ⟨test, false, no⟩],
      b.isSpared cx = false → b.value.IsKeptBy host cx f) :
    ((f test).truth host >>= fun holds =>
      if holds then restEffects host ((Branch.rest cx ⟨test, true, yes⟩).map f)
      else restEffects host ((Branch.rest cx ⟨test, false, no⟩).map f)) =
    (f test).truth host >>= fun holds =>
      if holds then (f yes).effects host else (f no).effects host := by
  have onYes := truth_bind_branch translation trusts ⟨test, true, yes⟩
    (inScope _ (by simp)) (kept _ (by simp))
  have onNo := truth_bind_branch translation trusts ⟨test, false, no⟩
    (inScope _ (by simp)) (kept _ (by simp))
  -- The second branch is the one that runs if the test does not hold.
  have turned : ∀ run other : Run W Unit, (fun holds : Bool => if holds then run else other) =
      fun holds => if holds = false then other else run := by
    intro run other
    funext holds
    cases holds <;> rfl
  rw [onYes, turned, onNo, ← turned]

variable (loud : host.fieldCallsAreQuiet = false)
include loud

theorem isKeptBy_logical {op : Operator} (isAndOr : op.isAndOr) {left right : Expr}
    (safe : DiscardSafe host cx f (binary loc op left right))
    (inside : ∀ part ∈ (binary loc op left right).visited cx, part.IsKeptBy host cx f) :
    (binary loc op left right).IsKeptBy host cx f := by
  let b : Branch := ⟨left.simplifyCondition, op == .logicalAnd, right⟩
  have single : (binary loc op left right).branches = [b] := if_pos isAndOr
  have sameOp : b.op = op := by cases op <;> first | rfl | cases isAndOr
  rw [visited_logical cx loc isAndOr, single] at inside
  have branchRuns := truth_bind_branch translation trusts b (safe.inScope b (by simp [single]))
    (fun notSpared => inside right (mem_visitedBranches (List.mem_singleton_self b) notSpared))
    (pure ())
  -- The left side is rewritten as a condition, which has the same truth.
  rw [IsKeptBy, discard_logical cx loc isAndOr, translation.binary,
    effects_logical host loc isAndOr, ← truth_simplifyCondition host (f left),
    translation.simplifyCondition]
  refine Eq.trans ?_ branchRuns
  rw [← b.rest_eq]
  cases left : b.rest cx with
  | some rest =>
    have takes := safe.chains b rest (by simp [onlyRest?, single, left])
    rw [sameOp] at takes
    rw [Option.map_some, translation.logicalOrChain]
    exact effects_logicalOrChain trusts loud isAndOr loc (translation.takesTest_behind takes)
  | none =>
    -- Nothing is left for the condition to decide.
    simp only [Option.map_none, restEffects, ite_self, truth_bind_pure]
    exact inside b.test (test_mem_visitedBranches (List.forall_mem_singleton.mpr left))

theorem isKeptBy_conditional {test yes no : Expr}
    (safe : DiscardSafe host cx f (conditional loc test yes no))
    (inside : ∀ part ∈ (conditional loc test yes no).visited cx, part.IsKeptBy host cx f) :
    (conditional loc test yes no).IsKeptBy host cx f := by
  let onYes : Branch := ⟨test.simplifyCondition, true, yes⟩
  let onNo : Branch := ⟨test.simplifyCondition, false, no⟩
  have both : (conditional loc test yes no).branches = [onYes, onNo] := rfl
  have branchesRun := truth_bind_branches translation trusts safe.inScope
    fun b member notSpared => inside b.value (mem_visitedBranches member notSpared)
  rw [IsKeptBy, discard, translation.conditional, effects_conditional,
    ← truth_simplifyCondition host (f test), translation.simplifyCondition]
  refine Eq.trans ?_ branchesRun
  rw [← onYes.rest_eq, ← onNo.rest_eq]
  cases yesLeft : onYes.rest cx with
  | none =>
    cases noLeft : onNo.rest cx with
    | none =>
      -- Neither branch has to run, so that only the effects of the test are left.
      simp only [Option.map_none, restEffects, ite_self, truth_bind_pure]
      exact inside _ (test_mem_visitedBranches
        (List.forall_mem_cons.mpr ⟨yesLeft, List.forall_mem_singleton.mpr noLeft⟩))
    | some rest =>
      -- Only the second branch is left, which runs if the test fails.
      have takes := safe.chains onNo rest (by simp [onlyRest?, both, yesLeft, noLeft])
      rw [Option.map_some, translation.logicalOrChain]
      refine (effects_logicalOrChain trusts loud rfl loc
        (translation.takesTest_behind takes)).trans ?_
      congr 1
      funext holds
      cases holds <;> rfl
  | some yesRest =>
    cases noLeft : onNo.rest cx with
    | none =>
      -- Only the first branch is left, which runs if the test holds.
      have takes := safe.chains onYes yesRest (by simp [onlyRest?, both, yesLeft, noLeft])
      rw [Option.map_some, translation.logicalOrChain]
      exact effects_logicalOrChain trusts loud rfl loc (translation.takesTest_behind takes)
    | some noRest =>
      rw [Option.map_some, translation.conditional]
      exact effects_conditional host loc _ _ _

/--
Discarding an expression keeps it, if it asks for nothing that is out of the ordinary on its way.

What becomes of a call whose function can be spelled out is left to the translation.
-/
theorem isKeptBy_of_safe {holds : Expr → Prop} (safe : ∀ e, holds e → DiscardSafe host cx f e)
    (inPlace : ∀ e value, e.inPlace? = some value → holds e →
      (∀ part ∈ e.visited cx, part.IsKeptBy host cx f) → e.IsKeptBy host cx f)
    {e : Expr} (all : e.ThroughoutVisited cx holds) : e.IsKeptBy host cx f := by
  induction all with
  | @intro e here _ inside =>
    cases spelled : e.inPlace? with
    | some value => exact inPlace e value spelled here inside
    | none =>
      have here := safe e here
      cases e with
      | null | undefined | missing | boolean | number | bigInt | string | importMeta =>
        refine isKeptBy_of_silent (by rw [discard]) fun w => ?_
        rw [translation.leaf rfl]
        simp only [eval_null, eval_undefined, eval_missing, eval_boolean, eval_number, eval_bigInt,
          eval_string, eval_importMeta]
        exact Run.silent_pure _ w
      | this | regExp | importIdentifier =>
        -- Nobody sees an object being created or a value being looked up.
        refine isKeptBy_of_silent (by rw [discard]) fun w => ?_
        rw [translation.leaf rfl]
        simp only [eval_this, eval_regExp, eval_importIdentifier]
        exact Run.silent_inWorld (Run.silent_pure _ w)
      | function =>
        refine isKeptBy_of_silent (by rw [discard]) fun w => ?_
        rw [translation.function, eval_function]
        exact Run.silent_inWorld (Run.silent_pure _ w)
      | arrow =>
        refine isKeptBy_of_silent (by rw [discard]) fun w => ?_
        rw [translation.arrow, eval_arrow]
        exact Run.silent_inWorld (Run.silent_pure _ w)
      | classExpr => exact isKeptBy_classExpr translation _ here
      | spread => exact isKeptBy_of_stays (by rw [discard])
      | inlinedEnum loc value comment =>
        rw [IsKeptBy, discard, translation.inlinedEnum, effects_inlinedEnum]
        exact inside value (by simp [visited])
      | identifier => exact isKeptBy_identifier translation _ trusts
      | dot => exact isKeptBy_dot translation _ trusts
      | index => exact isKeptBy_index translation _ trusts here
      | call loc target args link isPure kind =>
        cases isPure with
        | true =>
          -- Only the arguments of a call are left that is marked as pure.
          exact isKeptBy_pureCall translation loc trusts fun arg member =>
            inside arg (by simpa [visited] using member)
        | false => exact isKeptBy_of_stays (discard_call_stays cx spelled here.notDeferred)
      | new => exact isKeptBy_new translation _ trusts inside
      | array => exact isKeptBy_array translation _ inside
      | object => exact isKeptBy_object translation _ (here.keysPlain _ _ rfl) inside
      | template loc tag head substitutions =>
        cases tag with
        | none => exact isKeptBy_template translation loc head inside
        | some tag => exact isKeptBy_of_stays (by rw [discard])
      | conditional => exact isKeptBy_conditional translation _ trusts loud here inside
      | unary => exact isKeptBy_unary translation _ inside
      | binary loc op left right =>
        cases connective : op.isAndOr with
        | true => exact isKeptBy_logical translation loc trusts loud connective here inside
        | false => exact isKeptBy_binary translation loc connective inside

end

end Expr

end EcmaPrune
