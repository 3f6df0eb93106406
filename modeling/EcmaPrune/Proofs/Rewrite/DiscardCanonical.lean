import EcmaPrune.Proofs.Rewrite.ConditionCanonical
import EcmaPrune.Proofs.Rewrite.DiscardRemovable
import EcmaPrune.Proofs.Rewrite.Discarded
import EcmaPrune.Proofs.Rewrite.Sum
import Mathlib.Data.List.Basic

/-! Of equal expressions whose value is discarded equal ones are left. -/

namespace EcmaPrune

@[simp] theorem TemplatePart.value_canonical (part : TemplatePart) :
    part.canonical.value = part.value.canonical := by
  cases part
  rfl

@[simp] theorem Property.kind_canonical (p : Property) : p.canonical.kind = p.kind := by
  cases p
  rfl

@[simp] theorem Property.isComputed_canonical (p : Property) :
    p.canonical.isComputed = p.isComputed := by
  cases p
  rfl

@[simp] theorem Property.key_canonical (p : Property) : p.canonical.key = p.key.canonical := by
  cases p
  rfl

@[simp] theorem Property.value_canonical (p : Property) :
    p.canonical.value = p.value.map Expr.canonical := by
  cases p
  exact Expr.canonicalOption_eq_map _

namespace Expr

-- Canonical forms are read off one constructor at a time, and lists item by item.
attribute [local simp] canonical canonicalList_eq_map canonicalOption_eq_map
  TemplatePart.canonicalList_eq_map Property.canonicalList_eq_map

@[simp] theorem isSpread_canonical (e : Expr) : e.canonical.isSpread = e.isSpread := by
  cases e <;> rfl

@[simp] theorem spreadArgument?_canonical (e : Expr) :
    e.canonical.spreadArgument? = e.spreadArgument?.map canonical := by
  cases e <;> rfl

/-- Whether a name is asked for does not depend on positions. -/
theorem looksLike_canonical {guard : Expr} (named : guard.isIdentifier) (e : Expr) :
    guard.canonical.looksLike e.canonical = guard.looksLike e := by
  cases guard with
  | identifier loc ref isRemovable mustKeepInWith =>
    simp only [canonical, looksLike, unwrapped_canonical]
    generalize e.unwrapped = inner
    cases inner <;> rfl
  | _ => cases named

/-- A name that is asked for makes the same link of equal chains optional. -/
theorem insertChain?_canonical {guard : Expr} (named : guard.isIdentifier) : (e : Expr) →
    e.canonical.insertChain? guard.canonical = (e.insertChain? guard).map canonical
  | dot _ target _ _ _ | call _ target _ _ _ _ | index _ target _ _ _ => by
    simp only [canonical, insertChain?, looksLike_canonical named,
      insertChain?_canonical named target]
    split
    · simp
    · cases target.insertChain? guard <;> simp
  | array .. | arrow .. | bigInt .. | binary .. | boolean .. | classExpr .. | conditional ..
  | function .. | identifier .. | importIdentifier .. | importMeta _ | inlinedEnum ..
  | missing _ | new .. | null _ | number .. | object .. | regExp .. | spread .. | string ..
  | template .. | this _ | unary .. | undefined _ => rfl

/-- A name that is tested does not depend on positions. -/
theorem optionGuard_canonical (unbound : Ref → Bool) (loc : Loc) (ref : Ref)
    (isRemovable : Bool) :
    (if unbound ref then none else some (identifier default ref isRemovable false)) =
      (if unbound ref then none
        else some (identifier loc ref isRemovable false)).map canonical := by
  split <;> simp

@[simp] theorem nullGuard?_canonical (unbound : Ref → Bool) (op : Operator) (e : Expr) :
    e.canonical.nullGuard? unbound op = (e.nullGuard? unbound op).map canonical := by
  -- The test is looked at from both sides: the name may stand on either one.
  cases e with
  | binary loc test left right =>
    simp only [canonical, nullGuard?]
    split
    · cases left with
      | identifier loc ref isRemovable mustKeepInWith =>
        cases right with
        | null =>
          cases mustKeepInWith with
          | false => exact optionGuard_canonical ..
          | true => rfl
        | _ => cases mustKeepInWith <;> rfl
      | null =>
        cases right with
        | identifier loc ref isRemovable mustKeepInWith =>
          cases mustKeepInWith with
          | false => exact optionGuard_canonical ..
          | true => rfl
        | _ => rfl
      | _ => rfl
    · rfl
  | _ => rfl

theorem logicalOrChain_canonical (cx : DiscardContext) (loc : Loc) (op : Operator)
    (left right : Expr) :
    logicalOrChain cx default op left.canonical right.canonical =
      (logicalOrChain cx loc op left right).canonical := by
  simp only [logicalOrChain, nullGuard?_canonical]
  cases cx.chainsSupported with
  | false => simp
  | true =>
    cases guarded : left.nullGuard? cx.unbound op with
    | none => simp
    | some guard =>
      have named : guard.isIdentifier := by
        obtain ⟨_, _, _, rfl, _⟩ := eq_of_nullGuard? guarded
        rfl
      simp only [Option.map_some, Option.bind_some, insertChain?_canonical named]
      cases right.insertChain? guard <;> simp

theorem notString_canonical {e : Expr} (other : ∀ loc units, e ≠ string loc units) (loc : Loc)
    (units : List UInt16) : e.canonical ≠ string loc units := by
  cases e with
  | string => exact absurd rfl (other _ _)
  | _ => simp

/-- Equal sums have the same strings blanked. -/
@[simp] theorem blankStrings_canonical (e : Expr) :
    e.canonical.blankStrings = (e.blankStrings.1.canonical, e.blankStrings.2) := by
  -- Only the ends of a chain of sums are opened, so the induction is along that chain.
  induction e using induction_on_sum with
  | literal loc units => rfl
  | addLiteral loc left rightLoc units ih =>
    simp only [canonical, blankStrings_addition_string, ih]
    split <;> simp [emptyString]
  | add loc left right other ih =>
    rw [blankStrings_addition loc left other, canonical,
      blankStrings_addition _ _ (notString_canonical other), ih]
    simp
  | other e notString notSum =>
    rw [blankStrings_other notString notSum,
      blankStrings_other (notString_canonical notString) ?_]
    cases e with
    | binary loc op left right =>
      rintro _ _ _ ⟨⟩
      exact notSum _ _ _ rfl
    | _ => simp

@[simp] theorem discardSum_canonical (e : Expr) :
    discardSum e.canonical = (discardSum e).map canonical := by
  simp only [discardSum, blankStrings_canonical]
  generalize e.blankStrings = blanked
  rcases blanked with ⟨blanked, isConcatenation⟩
  cases blanked with
  | string => cases isConcatenation <;> rfl
  | _ => rfl

@[simp] theorem comma_canonical (a b : Expr) :
    comma a.canonical b.canonical = (comma a b).canonical := by
  simp [comma]

/-- Equal expressions in turn make up equal sequences. -/
theorem sequence_canonical (exprs : List (Option Expr)) :
    sequence (exprs.map (Option.map canonical)) = (sequence exprs).map canonical := by
  -- What is missing is left out first, and the rest is joined from the left.
  have present : (exprs.map (Option.map canonical)).reduceOption =
      exprs.reduceOption.map canonical := by
    show List.filterMap id _ = (List.filterMap id exprs).map canonical
    simp [List.filterMap_map, List.map_filterMap]
  have folded : ∀ (rest : List Expr) (first : Expr),
      (rest.map canonical).foldl comma first.canonical =
        (rest.foldl comma first).canonical := by
    intro rest
    induction rest with
    | nil => exact fun _ => rfl
    | cons e rest ih => exact fun first => by simp [ih]
  rw [sequence, sequence, present]
  cases exprs.reduceOption with
  | nil => rfl
  | cons first rest => simp [folded]

@[simp] theorem bareTemplate_canonical (parts : List TemplatePart) :
    bareTemplate (parts.map TemplatePart.canonical) = (bareTemplate parts).map canonical := by
  cases parts <;> simp [bareTemplate]

/-- Equal substitutions leave equal parts in the same order. -/
theorem discardParts_canonical (pending : List TemplatePart)
    (parts : List (TemplatePart × Option Expr)) :
    discardParts (pending.map TemplatePart.canonical)
        (parts.map fun part => (part.1.canonical, part.2.map canonical)) =
      (discardParts pending parts).map (Option.map canonical) := by
  fun_induction discardParts pending parts with
  | case1 pending => simp [discardParts]
  | case2 pending part rest parts isUnknown ih =>
    simpa [discardParts, isUnknown, TemplatePart.canonical] using ih
  | case3 pending part rest parts isKnown ih =>
    simpa [discardParts, isKnown] using ih

theorem discardKey_canonical (key : Expr) (rest : Option Expr) :
    discardKey key.canonical (rest.map canonical) = (discardKey key rest).map canonical := by
  simp only [discardKey, primitiveType_canonical]
  split <;> simp [emptyString]

theorem trimProperty_canonical (p : Property) (rest : Option Expr) :
    trimProperty p.canonical (rest.map canonical) =
      (trimProperty p rest).map Property.canonical := by
  rcases p with ⟨kind, isComputed, isStatic, key, value, initializer⟩
  simp only [trimProperty, Property.canonical]
  by_cases spreads : kind == .spread
  · simp [spreads, Property.canonical]
  · cases rest with
    | some value => simp [spreads, Property.canonical]
    | none => cases isComputed <;> simp [spreads, Property.canonical]

/-- What leaves equal parts of equal items leaves equal sequences of equal lists. -/
theorem sequence_map_canonical {β : Type} {same : β → β} {items : List β}
    {rest : β → Option Expr}
    (inside : ∀ item ∈ items, rest (same item) = (rest item).map canonical) :
    sequence ((items.map same).map rest) = (sequence (items.map rest)).map canonical := by
  rw [← sequence_canonical, List.map_map, List.map_map]
  exact congrArg sequence (List.map_congr_left inside)

-- The equations of the recursion are worked out once, for all the proofs below.
attribute [local simp] discard

section

variable {cx : DiscardContext} (loc : Loc)

theorem discard_array_canonical {items : List Expr}
    (inside : ∀ item ∈ items, item.canonical.discard cx = (item.discard cx).map canonical) :
    (array loc items).canonical.discard cx = ((array loc items).discard cx).map canonical := by
  have spreads : (items.map canonical).any isSpread = items.any isSpread := by
    simp [List.any_map, Function.comp_def]
  rw [canonical, canonicalList_eq_map, discard, discard, spreads]
  split
  · have kept : (items.map canonical).filterMap (discard cx) =
        (items.filterMap (discard cx)).map canonical := by
      rw [List.filterMap_map, List.map_filterMap]
      exact List.filterMap_congr inside
    simp [kept]
  · exact sequence_map_canonical inside

theorem discard_object_canonical {properties : List Property}
    (key : ∀ p ∈ properties, p.key.canonical.discard cx = (p.key.discard cx).map canonical)
    (value : ∀ p ∈ properties,
      p.canonical.value.bind (discard cx) = (p.value.bind (discard cx)).map canonical) :
    (object loc properties).canonical.discard cx =
      ((object loc properties).discard cx).map canonical := by
  have spreads : ((properties.map Property.canonical).any fun p => p.kind == .spread) =
      properties.any fun p => p.kind == .spread := by
    simp [List.any_map, Function.comp_def]
  rw [canonical, Property.canonicalList_eq_map, discard_object, discard_object, spreads]
  split
  · have kept : ((properties.map Property.canonical).filterMap fun p =>
          trimProperty p (p.value.bind (discard cx))) =
        (properties.filterMap fun p => trimProperty p (p.value.bind (discard cx))).map
          Property.canonical := by
      rw [List.filterMap_map, List.map_filterMap]
      refine List.filterMap_congr fun p held => ?_
      rw [Function.comp_apply, value p held, trimProperty_canonical]
    simp [kept]
  · rw [← sequence_canonical, List.flatMap_map, List.map_flatMap]
    refine congrArg sequence (List.flatMap_congr fun p held => ?_)
    -- Each member leaves what is left of its key and then what is left of its value.
    rw [value p held, Property.isComputed_canonical, Property.key_canonical, key p held,
      discardKey_canonical]
    split <;> rfl

theorem discard_template_canonical {head : List UInt16} {parts : List TemplatePart}
    (inside : ∀ part ∈ parts,
      part.value.canonical.discard cx = (part.value.discard cx).map canonical) :
    (template loc none head parts).canonical.discard cx =
      ((template loc none head parts).discard cx).map canonical := by
  have left : (parts.map TemplatePart.canonical).map
        (fun part => (part, part.value.discard cx)) =
      (parts.map fun part => (part, part.value.discard cx)).map
        fun part => (part.1.canonical, part.2.map canonical) := by
    rw [List.map_map, List.map_map]
    refine List.map_congr_left fun part held => ?_
    simp [inside part held]
  rw [canonical, canonicalOption, TemplatePart.canonicalList_eq_map, discard, discard, left,
    ← sequence_canonical, ← discardParts_canonical, List.map_nil]

theorem discard_unary_canonical {op : Operator} {value : Expr} {fromIdentifier : Bool}
    (inside : value.canonical.discard cx = (value.discard cx).map canonical) :
    (unary loc op value fromIdentifier).canonical.discard cx =
      ((unary loc op value fromIdentifier).discard cx).map canonical := by
  cases op with
  | void | logicalNot =>
    rw [canonical, discard, discard]
    exact inside
  | typeof =>
    rw [canonical, discard, discard, isIdentifier_canonical]
    split
    · rfl
    · exact inside
  | _ => simp

/-- Arguments that spread stay in an array, and the others leave equal parts. -/
theorem discardArgs_canonical {args : List Expr}
    (inside : ∀ arg ∈ args, arg.canonical.discard cx = (arg.discard cx).map canonical) :
    sequence ((args.map canonical).map fun arg =>
      match arg.spreadArgument? with
      | some kept => some kept
      | none => arg.discard cx) =
    (sequence (args.map fun arg =>
      match arg.spreadArgument? with
      | some kept => some kept
      | none => arg.discard cx)).map canonical := by
  refine sequence_map_canonical fun arg member => ?_
  rw [spreadArgument?_canonical]
  cases arg.spreadArgument? with
  | some kept => rfl
  | none => exact inside arg member

theorem discard_call_canonical {target : Expr} {args : List Expr} {link : ChainLink}
    {isPure : Bool} {kind : CallKind}
    (inside : ∀ arg ∈ args, arg.canonical.discard cx = (arg.discard cx).map canonical)
    (body : ∀ value ∈ target.calledValue?,
      value.canonical.discard cx = (value.discard cx).map canonical) :
    (call loc target args link isPure kind).canonical.discard cx =
      ((call loc target args link isPure kind).discard cx).map canonical := by
  cases isPure with
  | true =>
    rw [canonical, discard_call_pure, discard_call_pure, canonicalList_eq_map]
    exact discardArgs_canonical inside
  | false =>
    cases args with
    | cons arg args => rw [canonical, canonicalList, discard_call_cons, discard_call_cons]; simp
    | nil =>
      have equation : ∀ loc target, (call loc target [] link false kind).discard cx = _ :=
        fun loc target => discard.eq_def cx _
      rw [canonical, canonicalList, equation, equation]
      dsimp only
      cases target with
      | function funcLoc func =>
        rcases func with ⟨name, params, statements, isAsync, isGenerator⟩
        cases params <;> cases statements <;> rfl
      | arrow arrowLoc params statements isAsync prefersExpr =>
        -- An arrow function with at most one statement is taken apart.
        rcases params with _ | ⟨param, params⟩
        · rcases statements with _ | ⟨first, _ | ⟨second, others⟩⟩
          · rfl
          · cases first with
            | expr stmtLoc value isGlue =>
              cases isAsync with
              | false => exact body value rfl
              | true => rfl
            | returnValue stmtLoc value =>
              cases value with
              | none => cases isAsync <;> rfl
              | some value =>
                cases isAsync with
                | false => exact body value rfl
                | true => rfl
            | _ => rfl
          · cases first with
            | returnValue stmtLoc value => cases value <;> rfl
            | _ => rfl
        · rfl
      | _ => rfl

/-- A branch that a guard spares leaves nothing of either. -/
theorem spared_canonical (spared : Bool) (rest : Option Expr) :
    (if spared then none else rest.map canonical) =
      (if spared then none else rest).map canonical := by
  cases spared <;> rfl

theorem discard_binary_canonical {op : Operator} {left right : Expr}
    (onLeft : left.canonical.discard cx = (left.discard cx).map canonical)
    (onRight : right.canonical.discard cx = (right.discard cx).map canonical)
    (onGuard : left.simplifyCondition.canonical.discard cx =
      (left.simplifyCondition.discard cx).map canonical) :
    (binary loc op left right).canonical.discard cx =
      ((binary loc op left right).discard cx).map canonical := by
  have pair : sequence [left.canonical.discard cx, right.canonical.discard cx] =
      (sequence [left.discard cx, right.discard cx]).map canonical := by
    rw [onLeft, onRight]
    exact sequence_canonical [left.discard cx, right.discard cx]
  rw [canonical]
  cases op with
  | comma | strictEquality | strictInequality =>
    rw [discard, discard]
    exact pair
  | equality | inequality =>
    rw [discard, discard, producesPrimitive_canonical, producesPrimitive_canonical,
      strictMayBeLoose_canonical]
    split
    · exact pair
    · simp
  | logicalAnd | logicalOr =>
    -- The right operand is gone if nothing is left of it or a guard on the left spares it.
    rw [discard_logical cx default rfl, discard_logical cx loc rfl, simplifyCondition_canonical,
      isGuardedBy_canonical, onRight, onGuard, spared_canonical]
    generalize (if right.isGuardedBy _ _ _ then none else right.discard cx) = rest
    cases rest with
    | none => rfl
    | some rest => simp [logicalOrChain_canonical cx loc]
  | nullishCoalescing =>
    rw [discard, discard, onRight, onLeft]
    cases right.discard cx with
    | none => rfl
    | some rest => simp [logicalOrChain_canonical cx loc]
  | addition =>
    rw [discard, discard]
    exact discardSum_canonical (binary loc .addition left right)
  | _ => simp

theorem discard_conditional_canonical {test yes no : Expr}
    (onGuard : test.simplifyCondition.canonical.discard cx =
      (test.simplifyCondition.discard cx).map canonical)
    (onYes : yes.canonical.discard cx = (yes.discard cx).map canonical)
    (onNo : no.canonical.discard cx = (no.discard cx).map canonical) :
    (conditional loc test yes no).canonical.discard cx =
      ((conditional loc test yes no).discard cx).map canonical := by
  rw [canonical, discard, discard]
  simp only [simplifyCondition_canonical, isGuardedBy_canonical, onGuard, onYes, onNo,
    spared_canonical]
  generalize (if yes.isGuardedBy _ _ _ then none else yes.discard cx) = yesRest
  generalize (if no.isGuardedBy _ _ _ then none else no.discard cx) = noRest
  cases yesRest <;> cases noRest <;> simp [logicalOrChain_canonical cx loc]

end

/-- Of equal expressions whose value is discarded equal ones are left. -/
theorem discard_canonical (cx : DiscardContext) (e : Expr) :
    e.canonical.discard cx = (e.discard cx).map canonical := by
  -- Discarding goes on with simplified conditions and with values of called functions, which are
  -- no parts of the expression, so the induction is along the expressions it goes on with.
  induction e using induction_on_discarded with
  | step e ih =>
    cases e with
    | null | undefined | missing | boolean | number | bigInt | string | this | regExp | function
    | arrow | importMeta | importIdentifier | spread => simp
    | identifier | dot =>
      rw [canonical, discard, discard]
      split <;> simp
    | index loc target key link isRemovable =>
      rw [canonical, discard, discard, isRemovable_canonical]
      split <;> simp
    | classExpr loc definition =>
      rw [canonical, discard, discard, Class.isRemovable_canonical]
      split <;> simp
    | inlinedEnum loc value comment =>
      rw [canonical, discard, discard]
      exact ih value (by simp [discarded])
    | array loc items => exact discard_array_canonical loc ih
    | object loc properties =>
      refine discard_object_canonical loc (fun p held => ih p.key ?_) fun p held => ?_
      · exact List.mem_flatMap.mpr ⟨p, held, List.mem_cons_self⟩
      · rw [Property.value_canonical]
        cases there : p.value with
        | none => rfl
        | some value => exact ih value (List.mem_flatMap.mpr ⟨p, held, by simp [there]⟩)
    | template loc tag head parts =>
      cases tag with
      | some tag => simp
      | none =>
        exact discard_template_canonical loc fun part held =>
          ih part.value (List.mem_map_of_mem held)
    | conditional loc test yes no =>
      exact discard_conditional_canonical loc (ih test.simplifyCondition (by simp [discarded]))
        (ih yes (by simp [discarded])) (ih no (by simp [discarded]))
    | unary loc op value fromIdentifier =>
      exact discard_unary_canonical loc (ih value (by simp [discarded]))
    | binary loc op left right =>
      exact discard_binary_canonical loc (ih left (by simp [discarded]))
        (ih right (by simp [discarded])) (ih left.simplifyCondition (by simp [discarded]))
    | call loc target args link isPure kind =>
      refine discard_call_canonical loc (fun arg member => ih arg ?_)
        fun value called => ih value ?_
      · exact List.mem_append_right _ member
      · exact List.mem_append_left _ (Option.mem_toList.mpr called)
    | new loc target args isPure =>
      rw [canonical, canonicalList_eq_map, discard, discard]
      split
      · exact discardArgs_canonical ih
      · simp

end Expr

end EcmaPrune
