import EcmaPrune.Analysis.Removable
import EcmaPrune.Proofs.Analysis.PrimitiveType
import EcmaPrune.Proofs.Semantics.Silence

/-! Evaluating what can be removed is not observable. -/

namespace EcmaPrune

variable {W : Type}

namespace Host

/--
A host that believes annotations, and lets names be read that are there.

A bound name is always there, and an unbound one if its type is another than `undefined`.
-/
structure Trusts (host : Host W) (unbound : Ref → Bool) : Prop where
  annotations : host.trustsAnnotations = true
  reads : ∀ ref w, host.readsQuietly ref w =
    (!unbound ref || host.typeName (host.lookup ref w) != "undefined")

/-- The same host, believing annotations and letting names be read that are there. -/
def trusting (host : Host W) (unbound : Ref → Bool) (fieldCallsAreQuiet : Bool) : Host W :=
  { host with
    trustsAnnotations := true
    fieldCallsAreQuiet := fieldCallsAreQuiet
    readsQuietly := fun ref w =>
      !unbound ref || host.typeName (host.lookup ref w) != "undefined" }

theorem trusting_trusts (host : Host W) (unbound : Ref → Bool) (fieldCallsAreQuiet : Bool) :
    (host.trusting unbound fieldCallsAreQuiet).Trusts unbound :=
  ⟨rfl, fun _ _ => rfl⟩

end Host

/-- The answer of a type test about a type of a given name. -/
def TypeofTest.answer (test : TypeofTest) (name : String) : Bool :=
  if test.isReversed then Host.compareTexts test.op test.text (Text.units name)
  else Host.compareTexts test.op (Text.units name) test.text

/-- Only comparisons prove anything. -/
theorem TypeofTest.compares_of_provesDefined {test : TypeofTest} {onYes : Bool}
    (proves : test.provesDefined onYes) : test.op.isEquality || test.op.isRelational := by
  unfold provesDefined at proves
  split at proves <;> first | cases proves | simp_all [Operator.isEquality, Operator.isRelational]

/-- On the branch on which a test proves its identifier to exist, it has another type. -/
theorem TypeofTest.ne_undefined {test : TypeofTest} {onYes : Bool} {name : String}
    (proves : test.provesDefined onYes) (answered : test.answer name = onYes) :
    name ≠ "undefined" := by
  rintro rfl
  obtain ⟨op, ref, text, isReversed⟩ := test
  subst answered
  cases op with
  | strictEquality | equality | strictInequality | inequality =>
    -- The answer says whether the text is the name, and the proof needs it to say the opposite.
    have swap : (Text.units "undefined" == text) = (text == Text.units "undefined") := BEq.comm
    cases isReversed <;>
      simp only [provesDefined, answer, Host.compareTexts_strictEquality,
        Host.compareTexts_equality, Host.compareTexts_strictInequality,
        Host.compareTexts_inequality, Text.spells, bne, swap] at proves <;>
      simp at proves
  | lessThan | lessThanOrEqual | greaterThan | greaterThanOrEqual =>
    -- The name sorts behind the one letter that is compared with.
    simp only [provesDefined, Bool.and_eq_true, Text.spells, beq_iff_eq] at proves
    obtain ⟨rfl, polarity⟩ := proves
    cases isReversed <;> simp only [answer] at polarity <;> revert polarity <;> decide
  | _ => cases proves

namespace Expr

/-- An identifier that an object may provide because it stands inside a `with` statement. -/
def mustKeepInWith : Expr → Bool
  | identifier _ _ _ mustKeepInWith => mustKeepInWith
  | _ => false

/-- A class expression. -/
def isClass : Expr → Bool
  | classExpr .. => true
  | _ => false

/-- A generated call that defines a public class field, without being marked as pure. -/
def isFieldCall : Expr → Bool
  | call _ _ _ _ isPure kind => !isPure && kind == .publicField
  | _ => false

variable (host : Host W)

/-- A type test that was written on a bare identifier only looks at what is stored under it. -/
theorem eval_of_typeofRef? {e : Expr} {ref : Ref} (found : e.typeofRef? = some ref) :
    e.eval host = host.typeOfName ref := by
  unfold typeofRef? at found
  split at found
  · exact eval_unary_typeof_identifier host _ found
  · cases found

/-- A type test gives its answer about the type that the identifier has, and does nothing else. -/
theorem eval_of_typeofTest? {guard : Expr} {test : TypeofTest}
    (found : guard.typeofTest? = some test)
    (compares : test.op.isEquality || test.op.isRelational) :
    guard.eval host = Run.inWorld fun w =>
      pure (.boolean (test.answer (host.typeName (host.lookup test.ref w)))) := by
  have plain : test.op.takesValues := by
    cases op : test.op <;> first
      | rfl
      | simp [op, Operator.isEquality, Operator.isRelational] at compares
  unfold typeofTest? at found
  split at found
  · -- The text stands on the left, and nothing happens before the name is looked up.
    obtain ⟨ref, bare, rfl⟩ := Option.map_eq_some_iff.mp found
    rw [eval_binary host _ plain, eval_string, pure_bind, eval_of_typeofRef? host bare]
    funext w
    show host.applyBinary _ (.string _) (.string _) w = _
    rw [host.applyBinary_strings compares]
    rfl
  · -- The text stands on the right, and nothing happens after the name is looked up.
    obtain ⟨ref, bare, rfl⟩ := Option.map_eq_some_iff.mp found
    rw [eval_binary host _ plain, eval_of_typeofRef? host bare]
    simp only [eval_string, pure_bind]
    funext w
    show host.applyBinary _ (.string _) (.string _) w = _
    rw [host.applyBinary_strings compares]
    rfl
  · cases found

/-- An identifier that is there, or is said to be, is read without anybody seeing it. -/
theorem eval_identifier_silent {host : Host W} {unbound : Ref → Bool} (trusts : host.Trusts unbound)
    {loc : Loc} {ref : Ref} {isRemovable : Bool} {w : W}
    (there : isRemovable || !unbound ref || host.typeName (host.lookup ref w) != "undefined") :
    ((identifier loc ref isRemovable false).eval host).Silent w := by
  rw [eval_identifier]
  -- All three reasons lead to the same look at what is stored.
  refine Run.silent_inWorld ?_
  rw [trusts.annotations, trusts.reads, Bool.not_false, Bool.true_and, Bool.true_and,
    ← Bool.or_assoc, if_pos there]
  exact Run.silent_pure _ w

/-- The test of a type that guards a name is not observable. -/
theorem eval_guard_silent {unbound : Ref → Bool} {branch guard : Expr} {onYes : Bool}
    (guarded : branch.isGuardedBy guard onYes unbound) (w : W) : (guard.eval host).Silent w := by
  unfold isGuardedBy at guarded
  split at guarded
  · rename_i ref test named tested
    have proves := (Bool.and_eq_true_iff.mp guarded).2
    rw [eval_of_typeofTest? host tested (TypeofTest.compares_of_provesDefined proves)]
    exact Run.silent_inWorld (Run.silent_pure _ w)
  · cases guarded

/-- A guard that comes out as required shows that the identifier it guards can be read. -/
theorem eval_silent_of_isGuardedBy {host : Host W} {unbound : Ref → Bool}
    (trusts : host.Trusts unbound) {value guard : Expr} {onYes : Bool}
    (guarded : value.isGuardedBy guard onYes unbound) (inScope : value.mustKeepInWith = false)
    {w : W} {first : Value} (ended : (guard.eval host w).result = .ok first)
    (branch : first.toBoolean = onYes) : (value.eval host).Silent w := by
  unfold isGuardedBy at guarded
  split at guarded
  · rename_i ref test named tested
    simp only [Bool.and_eq_true, beq_iff_eq] at guarded
    obtain ⟨⟨_, rfl⟩, proves⟩ := guarded
    rw [eval_of_typeofTest? host tested (TypeofTest.compares_of_provesDefined proves)] at ended
    cases ended
    -- The answer of the test is the branch that is taken.
    have defined := TypeofTest.ne_undefined proves branch
    -- The guarded expression is the name that the test asked about.
    cases value with
    | identifier loc ref isRemovable mustKeepInWith =>
      cases inScope
      cases named
      exact eval_identifier_silent trusts (by simp [defined])
    | _ => cases named
  · cases guarded

/-- A literal has its value without doing anything, and it is no object or symbol. -/
theorem eval_of_isPrimitiveLiteral {e : Expr} (literal : e.isPrimitiveLiteral) :
    ∃ value : Value, e.eval host = pure value ∧ value.type ≠ .object ∧ value.type ≠ .symbol := by
  unfold isPrimitiveLiteral at literal
  fun_induction unwrapped e with
  -- The wrapper of an inlined constant does nothing.
  | case1 loc value comment ih =>
    rw [eval_inlinedEnum]
    exact ih literal
  | case2 e =>
    cases e with
    | null | undefined | boolean | number | bigInt | string =>
      simp only [eval_null, eval_undefined, eval_boolean, eval_number, eval_bigInt, eval_string]
      exact ⟨_, rfl, by simp [Value.type]⟩
    | _ => cases literal

/-- Removable lists hold removable items. -/
theorem isRemovable_of_mem {unbound : Ref → Bool} {items : List Expr}
    (removable : allRemovable unbound items) : ∀ item ∈ items, item.isRemovable unbound := by
  induction items with
  | nil => simp
  | cons item rest ih =>
    simp only [allRemovable, Bool.and_eq_true] at removable
    exact List.forall_mem_cons.mpr ⟨removable.1, ih removable.2⟩

/-- Silent items make a silent list. -/
theorem evalList_silent {items : List Expr} (w : W)
    (silent : ∀ item ∈ items, (item.eval host).Silent w) : (evalList host items).Silent w := by
  induction items with
  | nil =>
    rw [evalList_nil]
    exact Run.silent_pure _ w
  | cons item rest ih =>
    rw [evalList_cons]
    -- A silent first item leaves the world as it is for the others.
    refine (silent item (by simp)).bind fun _ _ => ?_
    refine (ih fun item member => silent item (by simp [member])).bind fun _ _ => ?_
    exact Run.silent_pure _ w

/-- Substitutions that are silent and have a text make a silent template. -/
theorem evalTexts_silent {unbound : Ref → Bool} {substitutions : List TemplatePart} (w : W)
    (removable : TemplatePart.allRemovable unbound substitutions)
    (silent : ∀ part ∈ substitutions, part.value.isRemovable unbound →
      (part.value.eval host).Silent w) :
    (TemplatePart.evalTexts host substitutions).Silent w := by
  induction substitutions with
  | nil =>
    rw [TemplatePart.evalTexts_nil]
    exact Run.silent_pure _ w
  | cons part rest ih =>
    rcases part with ⟨value, tail⟩
    simp only [TemplatePart.allRemovable, Bool.and_eq_true, bne_iff_ne] at removable
    obtain ⟨⟨valueRemovable, known⟩, restRemovable⟩ := removable
    rw [TemplatePart.evalTexts_cons]
    refine Run.Silent.bind ((silent _ (by simp) valueRemovable).bind fun v ended => ?_)
      fun _ _ => ?_
    · -- The type of the value is known, and every known type has a text.
      have allowed := eval_allows host value w v ended
      exact host.toText_silent (PrimitiveType.plain_of_allows known allowed) w
    · exact (ih restRemovable fun part member => silent part (by simp [member])).bind fun _ _ =>
        Run.silent_pure _ w

/-- Members with literal keys and silent values make a silent object literal. -/
theorem evalMembers_silent {unbound : Ref → Bool} {properties : List Property} (w : W)
    (removable : Property.allRemovable unbound properties)
    (silent : ∀ p ∈ properties, ∀ value ∈ p.value, value.isRemovable unbound →
      (value.eval host).Silent w) :
    (Property.evalList host properties).Silent w := by
  induction properties with
  | nil =>
    rw [Property.evalList_nil]
    exact Run.silent_pure _ w
  | cons p rest ih =>
    have later : ∀ p ∈ rest, ∀ value ∈ p.value, value.isRemovable unbound →
        (value.eval host).Silent w := fun p member => silent p (by simp [member])
    have now := silent p (by simp)
    rcases p with ⟨kind, isComputed, isStatic, key, value, initializer⟩
    simp only [Property.allRemovable, Bool.and_eq_true, Bool.or_eq_true, bne_iff_ne] at removable
    obtain ⟨⟨⟨notSpread, keyKnown⟩, valueRemovable⟩, restRemovable⟩ := removable
    rw [Property.evalList_cons, Property.eval, if_neg notSpread]
    -- The key comes first, then the value, and then the other members.
    refine Run.Silent.bind (Run.Silent.bind ?_ fun _ _ => ?_) fun _ _ =>
      ih restRemovable later
    · -- Either there is no key to compute, or it is a literal and names a property as it is.
      unfold Property.evalKey
      split
      · rename_i computed
        have literal := keyKnown.resolve_left (by simpa using computed)
        obtain ⟨v, fixed, plain⟩ := eval_of_isPrimitiveLiteral host literal
        rw [fixed, pure_bind]
        exact (host.toKey_silent plain w).bind fun _ _ => Run.silent_pure _ w
      · exact Run.silent_pure _ w
    · cases value with
      | none =>
        rw [evalOption_none]
        exact Run.silent_pure _ w
      | some value =>
        rw [evalOption_some]
        exact (now value rfl valueRemovable).bind fun _ _ => Run.silent_pure _ w

/-- Where a strict comparison may be loose, neither side is an object. -/
theorem eval_plain_of_strictMayBeLoose {left right : Expr} (same : left.strictMayBeLoose right) :
    (left.eval host).Always (fun value => value.type ≠ .object) ∧
      (right.eval host).Always fun value => value.type ≠ .object := by
  obtain ⟨same, specific⟩ := Bool.and_eq_true_iff.mp same
  have same := beq_iff_eq.mp same
  -- What is specific is known.
  have known : left.primitiveType ≠ .unknown := by
    intro unknown
    rw [unknown] at specific
    cases specific
  exact ⟨(eval_allows host left).imp fun _ allowed =>
      (PrimitiveType.plain_of_allows known allowed).1,
    (eval_allows host right).imp fun _ allowed =>
      (PrimitiveType.plain_of_allows (same ▸ known) allowed).1⟩

/-- Where a loose comparison is known to compare primitives, neither side is an object. -/
theorem eval_plain_of_comparesPrimitives {left right : Expr}
    (known : (left.producesPrimitive && right.producesPrimitive) || left.strictMayBeLoose right) :
    (left.eval host).Always (fun value => value.type ≠ .object) ∧
      (right.eval host).Always fun value => value.type ≠ .object := by
  rcases Bool.or_eq_true_iff.mp known with produce | same
  · obtain ⟨leftProduces, rightProduces⟩ := Bool.and_eq_true_iff.mp produce
    exact ⟨(eval_type host left).imp fun _ type => ne_object_of_producesPrimitive type leftProduces,
      (eval_type host right).imp fun _ type => ne_object_of_producesPrimitive type rightProduces⟩
  · exact eval_plain_of_strictMayBeLoose host same

/-- Unary operations that can be removed are silent if their operands are. -/
theorem eval_unary_silent {unbound : Ref → Bool} {loc : Loc} {op : Operator} {value : Expr}
    {fromIdentifier : Bool} {w : W}
    (removable : (unary loc op value fromIdentifier).isRemovable unbound)
    (silent : value.isRemovable unbound → (value.eval host).Silent w) :
    ((unary loc op value fromIdentifier).eval host).Silent w := by
  cases op with
  | typeof =>
    simp only [isRemovable, Bool.or_eq_true, Bool.and_eq_true] at removable
    cases bare : if fromIdentifier then value.identifierRef? else none with
    | some ref =>
      obtain ⟨rfl, bare⟩ : fromIdentifier = true ∧ value.identifierRef? = some ref := by
        simpa using bare
      rw [eval_unary_typeof_identifier host loc bare]
      exact Run.silent_inWorld (Run.silent_pure _ w)
    | none =>
      rw [eval_unary_typeof host loc bare]
      refine (silent (removable.resolve_left ?_)).bind fun _ _ => Run.silent_pure _ w
      -- A bare identifier would have been looked up.
      rintro ⟨rfl, isIdentifier⟩
      cases value with
      | identifier => simp [identifierRef?] at bare
      | _ => cases isIdentifier
  | void | logicalNot =>
    rw [eval_unary host loc rfl]
    exact (silent removable).bind fun _ _ => Run.silent_pure _ w
  | _ => cases removable

/-- Binary operations that can be removed are silent if their operands are where they run. -/
theorem eval_binary_silent {unbound : Ref → Bool} {loc : Loc} {op : Operator}
    {left right : Expr} {w : W} (removable : (binary loc op left right).isRemovable unbound)
    (leftSilent : left.isRemovable unbound → (left.eval host).Silent w)
    (rightSilent : right.isRemovable unbound → (right.eval host).Silent w)
    (guarded : ∀ onYes first, right.isGuardedBy left onYes unbound →
      (left.eval host w).result = .ok first → first.toBoolean = onYes →
      (right.eval host).Silent w) :
    ((binary loc op left right).eval host).Silent w := by
  cases op with
  | comma =>
    obtain ⟨leftRemovable, rightRemovable⟩ := Bool.and_eq_true_iff.mp removable
    rw [eval_comma]
    exact (leftSilent leftRemovable).bind fun _ _ => rightSilent rightRemovable
  | nullishCoalescing =>
    obtain ⟨leftRemovable, rightRemovable⟩ := Bool.and_eq_true_iff.mp removable
    rw [eval_coalesce]
    -- The right side runs or not, and is silent in either case.
    refine (leftSilent leftRemovable).bind fun _ _ => ?_
    split
    · exact rightSilent rightRemovable
    · exact Run.silent_pure _ w
  | logicalAnd =>
    obtain ⟨leftRemovable, rightRemovable⟩ := Bool.and_eq_true_iff.mp removable
    rw [eval_and]
    -- The right side is silent by itself, or because of how the left one came out.
    refine (leftSilent leftRemovable).bind fun first ended => ?_
    split
    · rename_i holds
      exact (Bool.or_eq_true_iff.mp rightRemovable).elim rightSilent fun isGuarded =>
        guarded true first isGuarded ended holds
    · exact Run.silent_pure _ w
  | logicalOr =>
    obtain ⟨leftRemovable, rightRemovable⟩ := Bool.and_eq_true_iff.mp removable
    rw [eval_or]
    -- The same, with the right side running if the left one fails.
    refine (leftSilent leftRemovable).bind fun first ended => ?_
    split
    · exact Run.silent_pure _ w
    · rename_i fails
      exact (Bool.or_eq_true_iff.mp rightRemovable).elim rightSilent fun isGuarded =>
        guarded false first isGuarded ended (by simpa using fails)
  | strictEquality | strictInequality =>
    obtain ⟨leftRemovable, rightRemovable⟩ := Bool.and_eq_true_iff.mp removable
    -- A strict comparison converts nothing.
    rw [eval_binary host loc rfl]
    exact (leftSilent leftRemovable).bind fun _ _ =>
      (rightSilent rightRemovable).bind fun _ _ => Run.silent_pure _ w
  | equality | inequality =>
    simp only [isRemovable, Bool.and_eq_true] at removable
    obtain ⟨⟨same, leftRemovable⟩, rightRemovable⟩ := removable
    rw [eval_binary host loc rfl]
    refine (leftSilent leftRemovable).bind fun first leftEnded =>
      (rightSilent rightRemovable).bind fun second rightEnded => ?_
    -- Both sides have the same named type, which is that of a primitive.
    have plain := eval_plain_of_strictMayBeLoose host same
    simp only [Host.applyBinary, pure_bind,
      host.looseEq_of_primitive (plain.1 w first leftEnded) (plain.2 w second rightEnded)]
    exact Run.silent_pure _ w
  | lessThan | greaterThan | lessThanOrEqual | greaterThanOrEqual =>
    simp only [isRemovable, Bool.and_eq_true] at removable
    obtain ⟨⟨⟨kind, same⟩, leftRemovable⟩, rightRemovable⟩ := removable
    rw [eval_binary host loc rfl]
    refine (leftSilent leftRemovable).bind fun first leftEnded =>
      (rightSilent rightRemovable).bind fun second rightEnded => ?_
    -- Both sides have the same type, and it is one whose values have an order.
    obtain ⟨t, ordered, named⟩ : ∃ t : ValueType, (t = .number ∨ t = .bigInt ∨ t = .string) ∧
        left.primitiveType.valueType? = some t := by
      simp only [Bool.or_eq_true, beq_iff_eq] at kind
      rcases kind with (isString | isNumber) | isBigInt
      · exact ⟨.string, by simp, by rw [isString]; rfl⟩
      · exact ⟨.number, by simp, by rw [isNumber]; rfl⟩
      · exact ⟨.bigInt, by simp, by rw [isBigInt]; rfl⟩
    have same := beq_iff_eq.mp same
    have leftType := eval_valueType host named w first leftEnded
    have rightType := eval_valueType host (same ▸ named) w second rightEnded
    have primitive : t ≠ .object := by rcases ordered with rfl | rfl | rfl <;> simp
    simp only [Host.applyBinary, host.toPrimitive_of_primitive (leftType ▸ primitive),
      host.toPrimitive_of_primitive (rightType ▸ primitive), pure_bind]
    exact (host.orderOf_silent ordered leftType rightType w).bind fun _ _ => Run.silent_pure _ w
  | _ => cases removable

/--
What can be removed is evaluated without anybody seeing it.

Field calls are the exception where they are not taken to be unobservable.
-/
theorem eval_silent_of_isRemovable {host : Host W} {unbound : Ref → Bool}
    (trusts : host.Trusts unbound) {e : Expr}
    (ordinary : e.Throughout fun part => part.isClass = false ∧ part.mustKeepInWith = false ∧
      (part.isFieldCall → host.fieldCallsAreQuiet))
    (removable : e.isRemovable unbound) (w : W) : (e.eval host).Silent w := by
  induction e using induction_on_parts generalizing w with
  | step e ih =>
    -- Every part is ordinary as well, so it is silent wherever it can be removed.
    have silent : ∀ part ∈ e.parts, part.isRemovable unbound → ∀ w, (part.eval host).Silent w :=
      fun part member removable => ih part member (ordinary.inside member) removable
    have inScope : ∀ part ∈ e.parts, part.mustKeepInWith = false :=
      fun part member => (ordinary.inside member).here.2.1
    cases e with
    | null | undefined | missing | boolean | number | bigInt | string | importMeta =>
      simp only [eval_null, eval_undefined, eval_missing, eval_boolean, eval_number, eval_bigInt,
        eval_string, eval_importMeta]
      exact Run.silent_pure _ w
    | regExp | function | arrow =>
      simp only [eval_regExp, eval_function, eval_arrow]
      exact Run.silent_inWorld (Run.silent_pure _ w)
    | this loc =>
      rw [eval_this]
      exact Run.silent_inWorld (Run.silent_pure _ w)
    | importIdentifier loc ref =>
      rw [eval_importIdentifier]
      exact Run.silent_inWorld (Run.silent_pure _ w)
    -- Classes were ruled out, and spreading cannot be removed.
    | classExpr => cases ordinary.here.1
    | spread => cases removable
    | inlinedEnum loc value comment =>
      rw [eval_inlinedEnum]
      exact silent value (by simp [parts]) removable w
    | identifier loc ref flagged mustKeepInWith =>
      obtain rfl : mustKeepInWith = false := ordinary.here.2.1
      refine eval_identifier_silent trusts ?_
      rw [show (flagged || !unbound ref) = true from removable, Bool.true_or]
    | dot loc target name link flagged =>
      obtain rfl : flagged = true := removable
      rw [eval_dot_annotated host loc trusts.annotations]
      exact Run.silent_inWorld (Run.silent_pure _ w)
    | index loc target key link flagged =>
      simp only [isRemovable, Bool.and_eq_true] at removable
      obtain ⟨rfl, keyRemovable⟩ := removable
      rw [eval_index_annotated host loc trusts.annotations]
      exact (silent key (by simp [parts]) keyRemovable w).bind fun _ _ =>
        Run.silent_inWorld (Run.silent_pure _ w)
    | call loc target args link isPure kind =>
      simp only [isRemovable, Bool.and_eq_true, Bool.or_eq_true, beq_iff_eq] at removable
      -- Either the call is marked as pure, or calls of its kind are quiet.
      have quiet : host.isQuietCall isPure kind := by
        have fields := ordinary.here.2.2
        have annotations := trusts.annotations
        cases isPure <;> simp_all [isFieldCall, Host.isQuietCall]
      rw [eval_call_quiet host loc quiet]
      refine (evalList_silent host w fun arg member => ?_).bind fun _ _ =>
        Run.silent_inWorld (Run.silent_pure _ w)
      exact silent arg (by simp [parts, member]) (isRemovable_of_mem removable.2 arg member) w
    | new loc target args isPure =>
      obtain ⟨rfl, argsRemovable⟩ := Bool.and_eq_true_iff.mp removable
      rw [eval_new_quiet host loc trusts.annotations]
      refine (evalList_silent host w fun arg member => ?_).bind fun _ _ =>
        Run.silent_inWorld (Run.silent_pure _ w)
      exact silent arg (by simp [parts, member]) (isRemovable_of_mem argsRemovable arg member) w
    | array loc items =>
      rw [eval_array]
      refine (evalList_silent host w fun item member => ?_).bind fun _ _ =>
        Run.silent_inWorld (Run.silent_pure _ w)
      exact silent item member (isRemovable_of_mem removable item member) w
    | object loc properties =>
      rw [eval_object]
      refine (evalMembers_silent host w removable fun p member value held => ?_).bind fun _ _ =>
        Run.silent_inWorld (Run.silent_pure _ w)
      refine fun valueRemovable => silent value ?_ valueRemovable w
      exact List.mem_flatMap.mpr ⟨p, member, by simp_all [Property.parts]⟩
    | template loc tag head substitutions =>
      simp only [isRemovable, Bool.and_eq_true, Option.isNone_iff_eq_none] at removable
      obtain ⟨rfl, partsRemovable⟩ := removable
      rw [eval_template_untagged]
      refine (evalTexts_silent host w partsRemovable fun part member => ?_).bind fun _ _ =>
        Run.silent_pure _ w
      refine fun valueRemovable => silent part.value ?_ valueRemovable w
      simpa [parts] using ⟨part, member, rfl⟩
    | conditional loc test yes no =>
      simp only [isRemovable, Bool.and_eq_true, Bool.or_eq_true] at removable
      obtain ⟨⟨testRemovable, yesKnown⟩, noKnown⟩ := removable
      rw [eval_conditional]
      -- Each branch is silent by itself, or because the test came out for it.
      refine (silent test (by simp [parts]) testRemovable w).bind fun first ended => ?_
      split
      · rename_i holds
        exact yesKnown.elim (fun known => silent yes (by simp [parts]) known w) fun guarded =>
          eval_silent_of_isGuardedBy trusts guarded (inScope yes (by simp [parts])) ended holds
      · rename_i fails
        exact noKnown.elim (fun known => silent no (by simp [parts]) known w) fun guarded =>
          eval_silent_of_isGuardedBy trusts guarded (inScope no (by simp [parts])) ended
            (by simpa using fails)
    | unary loc op value fromIdentifier =>
      exact eval_unary_silent host removable fun known => silent value (by simp [parts]) known w
    | binary loc op left right =>
      exact eval_binary_silent host removable
        (fun known => silent left (by simp [parts]) known w)
        (fun known => silent right (by simp [parts]) known w)
        fun _ _ guarded ended branch =>
          eval_silent_of_isGuardedBy trusts guarded (inScope right (by simp [parts])) ended branch

/--
The classifier of removable expressions is sound.

Without classes and names that an object may provide, evaluating what it lets be removed causes no
event, throws nothing and leaves the world as it is.
-/
theorem isRemovable_sound (host : Host W) (unbound : Ref → Bool) {e : Expr}
    (ordinary : e.Throughout fun part => part.isClass = false ∧ part.mustKeepInWith = false)
    (removable : e.isRemovable unbound) (w : W) :
    ∃ value, e.eval (host.trusting unbound true) w = ⟨[], w, .ok value⟩ :=
  eval_silent_of_isRemovable (host.trusting_trusts unbound true)
    (ordinary.imp fun _ ⟨notClass, inScope⟩ => ⟨notClass, inScope, fun _ => rfl⟩) removable w

/-- A name that nothing declares is read under a guard, where it is there if it is read. -/
theorem isRemovable_sound_guarded :
    let name := identifier default default false false
    let test := binary default .strictInequality (unary default .typeof name true)
      (string default (Text.units "undefined"))
    let guarded := conditional default test name (null default)
    guarded.isRemovable (fun _ => true) ∧
      ∃ value, guarded.eval ((default : Host Unit).trusting (fun _ => true) true) () =
        ⟨[], (), .ok value⟩ := by
  intro name test guarded
  have removable : guarded.isRemovable (fun _ => true) := by decide
  have leaf : ∀ {e : Expr}, e.parts = [] → e.isClass = false ∧ e.mustKeepInWith = false →
      e.Throughout fun part => part.isClass = false ∧ part.mustKeepInWith = false :=
    fun none here => .intro here (by simp [none])
  -- Every part of the example is a name, a test of its type, or a literal.
  have nameOrdinary := leaf (e := name) rfl ⟨rfl, rfl⟩
  have testOrdinary := Throughout.intro (e := test) ⟨rfl, rfl⟩ (List.forall_mem_cons.mpr
    ⟨.intro ⟨rfl, rfl⟩ (List.forall_mem_singleton.mpr nameOrdinary),
      List.forall_mem_singleton.mpr (leaf rfl ⟨rfl, rfl⟩)⟩)
  have ordinary := Throughout.intro (e := guarded) ⟨rfl, rfl⟩ (List.forall_mem_cons.mpr
    ⟨testOrdinary, List.forall_mem_cons.mpr
      ⟨nameOrdinary, List.forall_mem_singleton.mpr (leaf rfl ⟨rfl, rfl⟩)⟩⟩)
  exact ⟨removable, isRemovable_sound default _ ordinary removable ()⟩

end Expr

end EcmaPrune
