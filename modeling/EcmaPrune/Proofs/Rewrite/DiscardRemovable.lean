import EcmaPrune.Proofs.Rewrite.Discard

/-! Nothing is left of an expression that can be removed, when it is discarded. -/

namespace EcmaPrune

/-- What a comparison is turned round to does not compare orders. -/
theorem Operator.unordered_of_negatedEquality {op negated : Operator}
    (opposed : op.negatedEquality = some negated) : negated.isRelational = false := by
  cases op <;> cases opposed <;> rfl

namespace Expr

/--
An expression about which removing and discarding follow the same rules.

They differ about the comparisons of order, the generated calls that define class fields, and the
names that a test of their type shows to be there.
-/
structure IsReduced (unbound : Ref → Bool) (e : Expr) : Prop where
  unordered : ∀ loc op left right, e = binary loc op left right → op.isRelational = false
  notFieldCall : e.isFieldCall = false
  typesBound : ∀ ref ∈ e.typeofRef?, unbound ref = false

variable {unbound : Ref → Bool}

/-- What is no binary operation, no call and no type test is asked for nothing. -/
theorem isReduced_of_plain {e : Expr}
    (notBinary : ∀ loc op left right, e ≠ binary loc op left right)
    (notFieldCall : e.isFieldCall = false) (untested : e.typeofRef? = none) :
    IsReduced unbound e where
  unordered loc op left right same := absurd same (notBinary loc op left right)
  notFieldCall := notFieldCall
  typesBound ref found := by
    rw [untested] at found
    cases found

/-- A binary operation that does not compare orders is asked for nothing else. -/
theorem isReduced_binary {op : Operator} (unordered : op.isRelational = false) (loc : Loc)
    (left right : Expr) : IsReduced unbound (binary loc op left right) where
  unordered _ _ _ _ same := by
    cases same
    exact unordered
  notFieldCall := rfl
  typesBound _ found := by cases found

/-- Rewriting conditions makes nothing about which removing and discarding differ. -/
theorem conditionSafe_isReduced (unbound : Ref → Bool) : ConditionSafe (IsReduced unbound) where
  boolean _ _ := isReduced_of_plain (by simp) rfl rfl
  not _ _ := isReduced_of_plain (by simp) rfl rfl
  comma _ _ _ := isReduced_binary rfl _ _ _
  logical isAndOr _ _ _ := by
    refine isReduced_binary ?_ _ _ _
    rename_i op _ _ _
    cases op <;> first | rfl | cases isAndOr
  conditional _ _ _ _ := isReduced_of_plain (by simp) rfl rfl
  negated opposed := by
    intro loc left right _
    exact isReduced_binary (Operator.unordered_of_negatedEquality opposed) _ _ _

/-- Without type tests of names that may be absent, no condition guards anything. -/
theorem isGuardedBy_eq_false_of_bound {value guard : Expr} {onYes : Bool}
    (typesBound : ∀ part ∈ guard.parts, ∀ ref ∈ part.typeofRef?, unbound ref = false) :
    value.isGuardedBy guard onYes unbound = false := by
  -- The name that a guard tests is the operand of a type test on one of its sides.
  have bound : ∀ test, guard.typeofTest? = some test → unbound test.ref = false := by
    intro test tested
    unfold typeofTest? at tested
    split at tested
    · obtain ⟨_, found, rfl⟩ := Option.map_eq_some_iff.mp tested
      exact typesBound _ (by simp [parts]) _ found
    · obtain ⟨_, found, rfl⟩ := Option.map_eq_some_iff.mp tested
      exact typesBound _ (by simp [parts]) _ found
    · cases tested
  unfold isGuardedBy
  split
  · rename_i ref test named tested
    by_cases same : test.ref = ref
    · simp [← same, bound test tested]
    · simp [same]
  · rfl

theorem isGuardedBy_eq_false {value guard : Expr} {onYes : Bool}
    (reduced : guard.Throughout (IsReduced unbound)) :
    value.isGuardedBy guard onYes unbound = false :=
  isGuardedBy_eq_false_of_bound fun _ member => (reduced.inside member).here.typesBound

section

variable {loc : Loc}

theorem isRemovable_logical {op : Operator} (isAndOr : op.isAndOr) {left right : Expr}
    (reduced : left.Throughout (IsReduced unbound)) :
    (binary loc op left right).isRemovable unbound =
      (left.isRemovable unbound && right.isRemovable unbound) := by
  cases op with
  | logicalAnd | logicalOr => rw [isRemovable, isGuardedBy_eq_false reduced, Bool.or_false]
  | _ => cases isAndOr

theorem isRemovable_conditional {test yes no : Expr}
    (reduced : test.Throughout (IsReduced unbound)) :
    (conditional loc test yes no).isRemovable unbound =
      (test.isRemovable unbound && yes.isRemovable unbound && no.isRemovable unbound) := by
  rw [isRemovable, isGuardedBy_eq_false reduced, isGuardedBy_eq_false reduced, Bool.or_false,
    Bool.or_false]

/-- A comparison for equality that can be removed compares what can be removed. -/
theorem isRemovable_left_of_isEquality {op : Operator} (isEquality : op.isEquality)
    {left right : Expr} (removable : (binary loc op left right).isRemovable unbound) :
    left.isRemovable unbound := by
  cases op with
  | equality | inequality | strictEquality | strictInequality =>
    simp only [isRemovable, Bool.and_eq_true] at removable
    simp [removable]
  | _ => cases isEquality

/-- Turning a comparison round does not change whether it can be removed. -/
theorem isRemovable_negated {op negated : Operator} (opposed : op.negatedEquality = some negated)
    {left right : Expr} :
    (binary loc negated left right).isRemovable unbound =
      (binary loc op left right).isRemovable unbound := by
  cases op <;> cases opposed <;> rfl

end

/-- What can be removed can be removed as a rewritten condition. -/
theorem conditionClosed_isRemovable (unbound : Ref → Bool) :
    ConditionClosed fun e => e.Throughout (IsReduced unbound) ∧ e.isRemovable unbound := by
  have reduced := (conditionSafe_isReduced unbound).closed
  exact {
    boolean := fun loc value => ⟨reduced.boolean loc value, rfl⟩
    ofInlinedEnum := fun ⟨all, removable⟩ => ⟨reduced.ofInlinedEnum all, removable⟩
    not := fun loc _ ⟨all, removable⟩ => ⟨reduced.not loc all, removable⟩
    ofNot := fun ⟨all, removable⟩ => ⟨reduced.ofNot all, removable⟩
    comma := fun loc _ _ ⟨leftAll, left⟩ ⟨rightAll, right⟩ =>
      ⟨reduced.comma loc leftAll rightAll, Bool.and_eq_true_iff.mpr ⟨left, right⟩⟩
    ofComma := fun ⟨all, removable⟩ => by
      obtain ⟨leftAll, rightAll⟩ := reduced.ofComma all
      obtain ⟨left, right⟩ := Bool.and_eq_true_iff.mp removable
      exact ⟨⟨leftAll, left⟩, rightAll, right⟩
    logical := fun isAndOr loc _ _ ⟨leftAll, left⟩ ⟨rightAll, right⟩ => by
      refine ⟨reduced.logical isAndOr loc leftAll rightAll, ?_⟩
      rw [isRemovable_logical isAndOr leftAll, left, right]
      rfl
    ofLogical := fun isAndOr _ _ _ ⟨all, removable⟩ => by
      obtain ⟨leftAll, rightAll⟩ := reduced.ofLogical isAndOr all
      -- Nothing guards the right operand, so it can be removed by itself.
      rw [isRemovable_logical isAndOr leftAll] at removable
      obtain ⟨left, right⟩ := Bool.and_eq_true_iff.mp removable
      exact ⟨⟨leftAll, left⟩, rightAll, right⟩
    ofConditional := fun ⟨all, removable⟩ => by
      obtain ⟨testAll, yesAll, noAll⟩ := reduced.ofConditional all
      rw [isRemovable_conditional testAll] at removable
      simp only [Bool.and_eq_true] at removable
      obtain ⟨⟨test, yes⟩, no⟩ := removable
      exact ⟨⟨testAll, test⟩, ⟨yesAll, yes⟩, noAll, no⟩
    conditional := fun loc _ _ _ ⟨testAll, test⟩ ⟨yesAll, yes⟩ ⟨noAll, no⟩ => by
      refine ⟨reduced.conditional loc testAll yesAll noAll, ?_⟩
      rw [isRemovable_conditional testAll, test, yes, no]
      rfl
    negated := fun opposed _ _ _ ⟨all, removable⟩ =>
      ⟨reduced.negated opposed all, (isRemovable_negated opposed).trans removable⟩
    ofZeroTest := fun asks ⟨all, removable⟩ => by
      -- Only comparisons for equality ask for zero.
      have isEquality := (Bool.and_eq_true_iff.mp (Bool.and_eq_true_iff.mp
        (Bool.and_eq_true_iff.mp asks).1).1).1
      exact ⟨reduced.ofZeroTest asks all, isRemovable_left_of_isEquality isEquality removable⟩ }

/-- A literal can be removed. -/
theorem isRemovable_of_isPrimitiveLiteral {e : Expr} (literal : e.isPrimitiveLiteral) :
    e.isRemovable unbound := by
  unfold isPrimitiveLiteral at literal
  fun_induction unwrapped e with
  | case1 loc value comment ih => exact ih literal
  | case2 e =>
    cases e with
    | null | undefined | boolean | number | bigInt | string => rfl
    | _ => cases literal

/-- The type of a literal is known. -/
theorem primitiveType_of_isPrimitiveLiteral {e : Expr} (literal : e.isPrimitiveLiteral) :
    e.primitiveType ≠ .unknown := by
  unfold isPrimitiveLiteral at literal
  fun_induction unwrapped e with
  | case1 loc value comment ih => exact ih literal
  | case2 e =>
    cases e with
    | null | undefined | boolean | number | bigInt | string => simp [primitiveType]
    | _ => cases literal

/-- A sequence of nothing is nothing. -/
theorem sequence_eq_none {rests : List (Option Expr)} (nothing : ∀ rest ∈ rests, rest = none) :
    sequence rests = none := by
  have empty : rests.reduceOption = [] := List.filterMap_eq_nil_iff.mpr nothing
  rw [sequence, empty]

/-- Nothing is left of substitutions of known types of which nothing has to run. -/
theorem discardParts_eq_none {substitutions : List TemplatePart} {rest : Expr → Option Expr}
    (removable : TemplatePart.allRemovable unbound substitutions)
    (nothing : ∀ part ∈ substitutions, part.value.isRemovable unbound → rest part.value = none) :
    ∀ left ∈ discardParts [] (substitutions.map fun part => (part, rest part.value)),
      left = none := by
  induction substitutions with
  | nil => exact List.forall_mem_singleton.mpr rfl
  | cons part others ih =>
    rcases part with ⟨value, tail⟩
    simp only [TemplatePart.allRemovable, Bool.and_eq_true, bne_iff_ne] at removable
    obtain ⟨⟨valueRemovable, known⟩, othersRemovable⟩ := removable
    have later := ih othersRemovable fun part member => nothing part (by simp [member])
    -- A known type keeps the substitution out of the template that would convert it.
    rw [List.map_cons, discardParts, if_neg (by simpa using known)]
    exact List.forall_mem_cons.mpr ⟨rfl, List.forall_mem_cons.mpr
      ⟨nothing _ (by simp) valueRemovable, later⟩⟩

/-- The members of a removable object literal have literal keys and removable values. -/
theorem isRemovable_of_mem_properties {p : Property} {properties : List Property}
    (removable : Property.allRemovable unbound properties) (member : p ∈ properties) :
    p.kind ≠ .spread ∧ (p.isComputed → p.key.isPrimitiveLiteral) ∧
      ∀ value ∈ p.value, value.isRemovable unbound := by
  induction properties with
  | nil => cases member
  | cons first rest ih =>
    rcases first with ⟨kind, isComputed, isStatic, key, value, initializer⟩
    simp only [Property.allRemovable, Bool.and_eq_true, Bool.or_eq_true, bne_iff_ne] at removable
    obtain ⟨⟨⟨notSpread, keyKnown⟩, valueRemovable⟩, restRemovable⟩ := removable
    rcases List.mem_cons.mp member with rfl | member
    · refine ⟨notSpread, fun computed => ?_, fun value held => ?_⟩
      · exact keyKnown.resolve_left (by simpa using computed)
      · cases held
        exact valueRemovable
    · exact ih restRemovable member

-- The equations of the recursion are worked out once, for all the proofs below.
attribute [local simp] discard

section

variable {cx : DiscardContext} {loc : Loc}

/-- Nothing is left of arguments that can be removed. -/
theorem sequence_discardArgs {args : List Expr} (removable : allRemovable cx.unbound args)
    (nothing : ∀ arg ∈ args, arg.isRemovable cx.unbound → arg.discard cx = none) :
    sequence (args.map fun arg =>
      match arg.spreadArgument? with
      | some kept => some kept
      | none => arg.discard cx) = none := by
  refine sequence_eq_none fun rest member => ?_
  obtain ⟨arg, held, rfl⟩ := List.mem_map.mp member
  have argRemovable := isRemovable_of_mem removable arg held
  cases arg with
  -- A spread argument cannot be removed.
  | spread => cases argRemovable
  | _ => exact nothing _ held argRemovable

theorem discard_array_eq_none {items : List Expr} (removable : allRemovable cx.unbound items)
    (nothing : ∀ item ∈ items, item.isRemovable cx.unbound → item.discard cx = none) :
    (array loc items).discard cx = none := by
  have each := isRemovable_of_mem removable
  have plain : items.any isSpread = false := by
    refine List.any_eq_false.mpr fun item member spreads => ?_
    have itemRemovable := each item member
    cases item with
    | spread => cases itemRemovable
    | _ => cases spreads
  rw [discard, if_neg (by simp [plain])]
  refine sequence_eq_none fun rest member => ?_
  obtain ⟨item, held, rfl⟩ := List.mem_map.mp member
  exact nothing item held (each item held)

theorem discard_object_eq_none {properties : List Property}
    (removable : Property.allRemovable cx.unbound properties)
    (nothing : ∀ part ∈ (object loc properties).parts, part.isRemovable cx.unbound →
      part.discard cx = none) : (object loc properties).discard cx = none := by
  have plain : (properties.any fun p => p.kind == .spread) = false := by
    refine List.any_eq_false.mpr fun p member => ?_
    simpa using (isRemovable_of_mem_properties removable member).1
  rw [discard_object, if_neg (by simp [plain])]
  refine sequence_eq_none fun rest member => ?_
  obtain ⟨p, held, isRest⟩ := List.mem_flatMap.mp member
  obtain ⟨_, keyLiteral, valueRemovable⟩ := isRemovable_of_mem_properties removable held
  -- The rest is that of the key or that of the value of one member.
  simp only [List.mem_cons, List.not_mem_nil, or_false] at isRest
  rcases isRest with rfl | rfl
  · split
    · rename_i computed
      have literal := keyLiteral computed
      rw [discardKey, if_neg (by simpa using primitiveType_of_isPrimitiveLiteral literal)]
      refine nothing p.key ?_ (isRemovable_of_isPrimitiveLiteral literal)
      exact List.mem_flatMap.mpr ⟨p, held, by simp [Property.parts, computed]⟩
    · rfl
  · cases there : p.value with
    | none => rfl
    | some value =>
      refine nothing value ?_ (valueRemovable value there)
      exact List.mem_flatMap.mpr ⟨p, held, by simp [Property.parts, there]⟩

theorem discard_unary_eq_none {op : Operator} {value : Expr} {fromIdentifier : Bool}
    (removable : (unary loc op value fromIdentifier).isRemovable cx.unbound)
    (nothing : value.isRemovable cx.unbound → value.discard cx = none) :
    (unary loc op value fromIdentifier).discard cx = none := by
  cases op with
  | void | logicalNot => rw [discard]; exact nothing removable
  | typeof =>
    rw [discard]
    split
    · rfl
    · -- The operand is no bare name, so it is removable itself.
      rename_i notBare
      exact nothing ((Bool.or_eq_true_iff.mp removable).resolve_left notBare)
  | _ => cases removable

theorem discard_binary_eq_none {op : Operator} (other : op.isAndOr = false) {left right : Expr}
    (unordered : op.isRelational = false)
    (removable : (binary loc op left right).isRemovable cx.unbound)
    (leftNothing : left.isRemovable cx.unbound → left.discard cx = none)
    (rightNothing : right.isRemovable cx.unbound → right.discard cx = none) :
    (binary loc op left right).discard cx = none := by
  cases op with
  | logicalAnd | logicalOr => cases other
  | lessThan | greaterThan | lessThanOrEqual | greaterThanOrEqual => cases unordered
  | comma | strictEquality | strictInequality =>
    obtain ⟨leftRemovable, rightRemovable⟩ := Bool.and_eq_true_iff.mp removable
    rw [discard, leftNothing leftRemovable, rightNothing rightRemovable]
    rfl
  | nullishCoalescing =>
    obtain ⟨leftRemovable, rightRemovable⟩ := Bool.and_eq_true_iff.mp removable
    rw [discard, leftNothing leftRemovable, rightNothing rightRemovable]
  | equality | inequality =>
    simp only [isRemovable, Bool.and_eq_true] at removable
    obtain ⟨⟨same, leftRemovable⟩, rightRemovable⟩ := removable
    rw [discard, if_pos (by simp [same]), leftNothing leftRemovable, rightNothing rightRemovable]
    rfl
  | _ => cases removable

theorem discard_template_eq_none {tag : Option Expr} {head : List UInt16}
    {substitutions : List TemplatePart}
    (removable : (template loc tag head substitutions).isRemovable cx.unbound)
    (nothing : ∀ part ∈ substitutions, part.value.isRemovable cx.unbound →
      part.value.discard cx = none) :
    (template loc tag head substitutions).discard cx = none := by
  obtain ⟨untagged, partsRemovable⟩ := Bool.and_eq_true_iff.mp removable
  obtain rfl : tag = none := by simpa using untagged
  rw [discard]
  exact sequence_eq_none (discardParts_eq_none partsRemovable nothing)

theorem discard_call_eq_none {target : Expr} {args : List Expr} {link : ChainLink} {isPure : Bool}
    {kind : CallKind} (notFieldCall : (call loc target args link isPure kind).isFieldCall = false)
    (removable : (call loc target args link isPure kind).isRemovable cx.unbound)
    (nothing : ∀ arg ∈ args, arg.isRemovable cx.unbound → arg.discard cx = none) :
    (call loc target args link isPure kind).discard cx = none := by
  simp only [isRemovable, Bool.and_eq_true, Bool.or_eq_true, beq_iff_eq] at removable
  obtain ⟨quiet, argsRemovable⟩ := removable
  -- A call that defines a field would have to be marked as well.
  obtain rfl : isPure = true := by
    rcases quiet with marked | rfl
    · exact marked
    · simpa [isFieldCall] using notFieldCall
  rw [discard_call_pure]
  exact sequence_discardArgs argsRemovable nothing

theorem discard_new_eq_none {target : Expr} {args : List Expr} {isPure : Bool}
    (removable : (new loc target args isPure).isRemovable cx.unbound)
    (nothing : ∀ arg ∈ args, arg.isRemovable cx.unbound → arg.discard cx = none) :
    (new loc target args isPure).discard cx = none := by
  obtain ⟨rfl, argsRemovable⟩ := Bool.and_eq_true_iff.mp removable
  rw [discard, if_pos rfl]
  exact sequence_discardArgs argsRemovable nothing

/-- As no guard spares a branch, nothing is left of either branch, and so only of the test. -/
theorem discard_conditional_eq_none {test yes no : Expr}
    (reduced : test.Throughout (IsReduced cx.unbound))
    (removable : (conditional loc test yes no).isRemovable cx.unbound)
    (testNothing : test.isRemovable cx.unbound → test.simplifyCondition.discard cx = none)
    (yesNothing : yes.isRemovable cx.unbound → yes.discard cx = none)
    (noNothing : no.isRemovable cx.unbound → no.discard cx = none) :
    (conditional loc test yes no).discard cx = none := by
  rw [isRemovable_conditional reduced] at removable
  simp only [Bool.and_eq_true] at removable
  obtain ⟨⟨testRemovable, yesRemovable⟩, noRemovable⟩ := removable
  simp only [discard, yesNothing yesRemovable, noNothing noRemovable, ite_self,
    testNothing testRemovable]

theorem discard_logical_eq_none {op : Operator} (isAndOr : op.isAndOr) {left right : Expr}
    (reduced : left.Throughout (IsReduced cx.unbound))
    (removable : (binary loc op left right).isRemovable cx.unbound)
    (leftNothing : left.isRemovable cx.unbound → left.simplifyCondition.discard cx = none)
    (rightNothing : right.isRemovable cx.unbound → right.discard cx = none) :
    (binary loc op left right).discard cx = none := by
  rw [isRemovable_logical isAndOr reduced] at removable
  obtain ⟨leftRemovable, rightRemovable⟩ := Bool.and_eq_true_iff.mp removable
  rw [discard_logical cx loc isAndOr, rightNothing rightRemovable, ite_self]
  exact leftNothing leftRemovable

end

/--
Discarding agrees with what can be removed.

Nothing is left of a removable expression, where engines know optional chains and where they do
not, unless what evaluating it may evaluate holds a comparison of order, a call that defines a class
field without being marked as pure, or a test of the type of an unbound name.
-/
theorem discard_eq_none_of_isRemovable (cx : DiscardContext) {e : Expr}
    (reduced : e.Throughout (IsReduced cx.unbound)) (removable : e.isRemovable cx.unbound) :
    e.discard cx = none := by
  -- All parts are smaller, and so are the conditions that parts are rewritten as.
  have inside : ∀ part ∈ e.parts, part.isRemovable cx.unbound → part.discard cx = none := by
    intro part member partRemovable
    exact discard_eq_none_of_isRemovable cx (reduced.inside member) partRemovable
  have condition : ∀ part ∈ e.parts, part.isRemovable cx.unbound →
      part.simplifyCondition.discard cx = none := by
    intro part member partRemovable
    obtain ⟨conditionReduced, conditionRemovable⟩ :=
      (conditionClosed_isRemovable cx.unbound).simplifyCondition
        ⟨reduced.inside member, partRemovable⟩
    exact discard_eq_none_of_isRemovable cx conditionReduced conditionRemovable
  cases e with
  | null | undefined | missing | boolean | number | bigInt | string | this | regExp | function
  | arrow | importMeta | importIdentifier => rw [discard]
  | inlinedEnum loc value comment =>
    rw [discard]
    exact inside value (by simp [parts]) removable
  | identifier | dot | index | classExpr =>
    -- What is annotated or bound goes by the same condition.
    rw [isRemovable] at removable
    rw [discard, if_pos removable]
  | spread => cases removable
  | array loc items => exact discard_array_eq_none removable inside
  | object loc properties => exact discard_object_eq_none removable inside
  | template loc tag head substitutions =>
    refine discard_template_eq_none removable ?_
    intro part member
    exact inside part.value (List.mem_append_right _ (List.mem_map_of_mem member))
  | call loc target args link isPure kind =>
    refine discard_call_eq_none reduced.here.notFieldCall removable ?_
    intro arg member
    exact inside arg (by simp [parts, member])
  | new loc target args isPure =>
    refine discard_new_eq_none removable ?_
    intro arg member
    exact inside arg (by simp [parts, member])
  | conditional loc test yes no =>
    have isTest : test ∈ (conditional loc test yes no).parts := by simp [parts]
    exact discard_conditional_eq_none (reduced.inside isTest) removable (condition test isTest)
      (inside yes (by simp [parts])) (inside no (by simp [parts]))
  | unary loc op value fromIdentifier =>
    exact discard_unary_eq_none removable (inside value (by simp [parts]))
  | binary loc op left right =>
    have isLeft : left ∈ (binary loc op left right).parts := by simp [parts]
    have rightNothing := inside right (by simp [parts])
    -- The left side of a connective is discarded as a condition, any other as it is.
    cases connective : op.isAndOr with
    | true =>
      exact discard_logical_eq_none connective (reduced.inside isLeft) removable
        (condition left isLeft) rightNothing
    | false =>
      have unordered := reduced.here.unordered loc op left right rfl
      exact discard_binary_eq_none connective unordered removable (inside left isLeft)
        rightNothing
termination_by e.nodeCount
decreasing_by
  · exact nodeCount_lt_of_mem_parts member
  · have smaller := nodeCount_lt_of_mem_parts member
    have := nodeCount_simplifyCondition part
    omega

/-- A pure call behind a comparison is dropped with it, although it stands in a new condition. -/
theorem discard_eq_none_of_pureCall :
    let name := identifier default default true false
    let test := binary default .strictEquality name (null default)
    let items := array default [call default name [name] .plain true .normal]
    let e := binary default .logicalOr (unary default .logicalNot test false) items
    let cx : DiscardContext := ⟨true, fun _ => true⟩
    e.Throughout (IsReduced cx.unbound) ∧ e.isRemovable cx.unbound ∧ e.discard cx = none := by
  intro name test items e cx
  have leaf : ∀ {e : Expr}, e.parts = [] → (∀ loc op left right, e ≠ binary loc op left right) →
      e.isFieldCall = false → e.typeofRef? = none → e.Throughout (IsReduced cx.unbound) :=
    fun none notBinary notFieldCall untested =>
      throughout_of_parts_eq_nil none (isReduced_of_plain notBinary notFieldCall untested)
  have nameReduced := leaf (e := name) rfl (by simp [name]) rfl rfl
  have testReduced : (unary default .logicalNot test false).Throughout (IsReduced cx.unbound) :=
    throughout_unary.mpr ⟨isReduced_of_plain (by simp) rfl rfl,
      throughout_binary.mpr ⟨isReduced_binary rfl _ _ _, nameReduced, leaf rfl (by simp) rfl rfl⟩⟩
  have callReduced : (call default name [name] .plain true .normal).Throughout
      (IsReduced cx.unbound) :=
    .intro (isReduced_of_plain (by simp) rfl rfl)
      (List.forall_mem_cons.mpr ⟨nameReduced, List.forall_mem_singleton.mpr nameReduced⟩)
  have itemsReduced : items.Throughout (IsReduced cx.unbound) :=
    .intro (isReduced_of_plain (by simp [items]) rfl rfl)
      (List.forall_mem_singleton.mpr callReduced)
  have reduced : e.Throughout (IsReduced cx.unbound) :=
    throughout_binary.mpr ⟨isReduced_binary rfl _ _ _, testReduced, itemsReduced⟩
  have removable : e.isRemovable cx.unbound := by decide
  exact ⟨reduced, removable, discard_eq_none_of_isRemovable cx reduced removable⟩

end Expr

end EcmaPrune
