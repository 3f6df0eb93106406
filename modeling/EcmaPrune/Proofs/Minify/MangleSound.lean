import EcmaPrune.Proofs.Minify.MangleReference
import EcmaPrune.Proofs.Semantics.Congruence

/-! Rewriting an expression and everything in it keeps its value. -/

namespace EcmaPrune.Expr

variable {W : Type}

/-- No choice by nullishness stands where it matters what the operand refers to. -/
def HasFixedPosition (e : Expr) : Prop :=
  ∀ operand ∈ e.referencePosition?, operand.unwrapped.isCoalescing = false

/-- What is assigned to is not chosen by nullishness. -/
theorem IsTarget.fixed {e : Expr} (isTarget : e.IsTarget) : e.unwrapped.isCoalescing = false := by
  cases isTarget <;> rfl

/-- What a link of a chain continues is not chosen by nullishness. -/
theorem fixed_of_isChainLink {e : Expr} (isLink : e.isChainLink) :
    e.unwrapped.isCoalescing = false := by
  cases e <;> first | rfl | cases isLink

/--
An expression that is the same after it has been rewritten.

It has the same value, it refers to the same unless it is a choice by nullishness, and as a target
it is assigned to in the same way.
-/
structure IsMangledSafely (host : Host W) (looseAllowed : Bool) (e : Expr) : Prop where
  value : (e.mangled looseAllowed).eval host = e.eval host
  place : e.unwrapped.isCoalescing = false → (e.mangled looseAllowed).refer host = e.refer host
  assigns : e.IsTarget → ∀ target source,
    (e.mangled looseAllowed).assignFrom host target source = e.assignFrom host target source
  /-- As an item of an array pattern it takes the same items of the value. -/
  item : e.IsTarget → ∀ value {rest rewritten},
    assignItems host value rewritten = assignItems host value rest →
    assignItems host value (e.mangled looseAllowed :: rewritten) =
      assignItems host value (e :: rest)

section

variable {host : Host W} {looseAllowed : Bool}

/-- Items of a pattern go on in the same way if the items behind them do. -/
theorem assignItems_cons_congr (e : Expr) (value : Value) {rest other : List Expr}
    (same : assignItems host value other = assignItems host value rest) :
    assignItems host value (e :: other) = assignItems host value (e :: rest) := by
  cases e <;> simp only [assignItems, same]

/-- What stays as it is is the same. -/
theorem isMangledSafely_of_eq {e : Expr} (same : e.mangled looseAllowed = e) :
    IsMangledSafely host looseAllowed e := by
  constructor
  · rw [same]
  · rw [same]; exact fun _ => rfl
  · rw [same]; exact fun _ _ _ => rfl
  · rw [same]; exact fun _ value _ _ => assignItems_cons_congr e value

/-- What refers to its value refers to the same if the value is the same. -/
theorem refer_mangled_of_value {e : Expr} (plain : e.refersToValue)
    (value : (e.mangled looseAllowed).eval host = e.eval host)
    (fixed : e.unwrapped.isCoalescing = false) :
    (e.mangled looseAllowed).refer host = e.refer host := by
  -- Only a choice may come to name a place, and this is none.
  rw [refer_of_refersToValue host (refersToValue_mangled plain fixed),
    refer_of_refersToValue host plain, value]

/-- What refers to its value is the same if the value is, and if it is no target. -/
theorem isMangledSafely_of_value {e : Expr} (plain : e.refersToValue)
    (value : (e.mangled looseAllowed).eval host = e.eval host) (notTarget : ¬e.IsTarget) :
    IsMangledSafely host looseAllowed e where
  value := value
  place := refer_mangled_of_value plain value
  assigns isTarget := absurd isTarget notTarget
  item isTarget := absurd isTarget notTarget

/-- An item of an array pattern that is neither a hole nor the rest takes the next item. -/
def isPlainItem : Expr → Bool
  | missing _ | spread .. => false
  | _ => true

theorem assignItems_plain {e : Expr} (plain : e.isPlainItem) (value : Value) (rest : List Expr) :
    assignItems host value (e :: rest) =
      e.assignFrom host (e.refer host) (host.emit (.nextItem value)) >>= fun _ =>
        assignItems host value rest := by
  cases e <;> first | (cases plain; done) | simp only [assignItems]

/-- A place or pattern is the same if it is found and assigned to in the same way. -/
theorem isMangledSafely_of_target {e : Expr} (plain : e.isPlainItem)
    (stays : (e.mangled looseAllowed).isPlainItem)
    (value : (e.mangled looseAllowed).eval host = e.eval host)
    (place : e.unwrapped.isCoalescing = false →
      (e.mangled looseAllowed).refer host = e.refer host)
    (assigns : e.IsTarget → ∀ target source,
      (e.mangled looseAllowed).assignFrom host target source = e.assignFrom host target source) :
    IsMangledSafely host looseAllowed e where
  value := value
  place := place
  assigns := assigns
  item isTarget next rest rewritten same := by
    rw [assignItems_plain stays, assignItems_plain plain, place isTarget.fixed,
      assigns isTarget, same]

/-- A place is the same if it is found in the same way, and then its value is too. -/
theorem isMangledSafely_of_place {e : Expr} (plain : e.isPlainItem)
    (stays : (e.mangled looseAllowed).isPlainItem)
    (place : (e.mangled looseAllowed).refer host = e.refer host)
    (assigns : e.IsTarget → ∀ target source,
      (e.mangled looseAllowed).assignFrom host target source = e.assignFrom host target source) :
    IsMangledSafely host looseAllowed e := by
  have value : (e.mangled looseAllowed).eval host = e.eval host := congrArg host.value place
  exact isMangledSafely_of_target plain stays value (fun _ => place) assigns

/-- The items of an array pattern take what they took before. -/
theorem assignItems_mangled {items : List Expr}
    (each : ∀ item ∈ items, IsMangledSafely host looseAllowed item)
    (targets : ∀ item ∈ items, item.IsTarget) (value : Value) :
    assignItems host value (items.map (mangled looseAllowed)) = assignItems host value items := by
  induction items with
  | nil => rfl
  | cons item rest ih =>
    have restEach : ∀ other ∈ rest, IsMangledSafely host looseAllowed other := by
      intro other member
      exact each other (List.mem_cons_of_mem item member)
    have restTargets : ∀ other ∈ rest, other.IsTarget := by
      intro other member
      exact targets other (List.mem_cons_of_mem item member)
    -- The first item takes its part of the value, and the others go on behind it.
    have later := ih restEach restTargets
    exact (each item List.mem_cons_self).item (targets item List.mem_cons_self) value later

/-- The members of an object pattern take what they took before. -/
theorem assignList_mangled {properties : List Property}
    (each : ∀ e ∈ properties.flatMap Property.operands, IsMangledSafely host looseAllowed e)
    (keys : ∀ p ∈ properties, p.kind ≠ .spread → p.isComputed = false →
      p.key.isPrimitiveLiteralKind)
    (targets : ∀ p ∈ properties, ∀ target ∈ p.value, IsTarget target) (value : Value) :
    Property.assignList host value (properties.map (Property.mapExprs (mangled looseAllowed))) =
      Property.assignList host value properties := by
  have values : ∀ e ∈ properties.flatMap Property.operands,
      (e.mangled looseAllowed).eval host = e.eval host := by
    intro e member
    exact (each e member).value
  have names : ∀ p ∈ properties, p.kind ≠ .spread → p.isComputed = false →
      host.nameOf (p.key.mangled looseAllowed) = host.nameOf p.key := by
    intro p member notSpread notComputed
    -- A key that is only a name is a literal, which stays.
    have literal := keys p member notSpread notComputed
    have leaf : p.key.isLeaf := by
      cases key : p.key <;> simp_all [isPrimitiveLiteralKind, isLeaf]
    rw [mangled_of_isLeaf leaf]
  have targetSame : ∀ p ∈ properties, ∀ target ∈ p.value, ∀ source,
      (target.mangled looseAllowed).assignFrom host ((target.mangled looseAllowed).refer host)
        source = target.assignFrom host (target.refer host) source := by
    intro p member target held source
    have isOperand : target ∈ properties.flatMap Property.operands := by
      refine List.mem_flatMap.mpr ⟨p, member, ?_⟩
      simp_all [Property.operands, Property.parts]
    have inside := each target isOperand
    have isTarget := targets p member target held
    rw [inside.place isTarget.fixed, inside.assigns isTarget]
  exact Property.assignList_congr value names values targetSame

variable (loc : Loc)

theorem isMangledSafely_array {items : List Expr}
    (each : ∀ item ∈ items, IsMangledSafely host looseAllowed item) :
    IsMangledSafely host looseAllowed (array loc items) := by
  have value : ((array loc items).mangled looseAllowed).eval host =
      (array loc items).eval host := by
    rw [mangled_array, eval_array, eval_array,
      evalList_congr fun item member => (each item member).value]
  have stays : ((array loc items).mangled looseAllowed).isPlainItem := by
    rw [mangled_array]
    rfl
  refine isMangledSafely_of_target rfl stays value (refer_mangled_of_value rfl value) ?_
  intro isTarget target source
  cases isTarget with
  | array targets =>
    have takes := assignItems_mangled each targets
    simp only [mangled_array, assignFrom, takes]

theorem isMangledSafely_object {properties : List Property}
    (each : ∀ e ∈ properties.flatMap Property.operands, IsMangledSafely host looseAllowed e) :
    IsMangledSafely host looseAllowed (object loc properties) := by
  have value : ((object loc properties).mangled looseAllowed).eval host =
      (object loc properties).eval host := by
    rw [mangled_object, eval_object, eval_object,
      Property.evalList_congr fun e member => (each e member).value]
  have stays : ((object loc properties).mangled looseAllowed).isPlainItem := by
    rw [mangled_object]
    rfl
  refine isMangledSafely_of_target rfl stays value (refer_mangled_of_value rfl value) ?_
  intro isTarget target source
  cases isTarget with
  | object keys targets =>
    have takes := assignList_mangled each keys targets
    simp only [mangled_object, assignFrom, takes]

theorem isMangledSafely_spread {target : Expr}
    (inside : IsMangledSafely host looseAllowed target) :
    IsMangledSafely host looseAllowed (spread loc target) where
  value := by rw [mangled_spread, eval_spread, eval_spread, inside.value]
  place _ := by
    rw [mangled_spread, refer_of_refersToValue host rfl, refer_of_refersToValue host rfl,
      eval_spread, eval_spread, inside.value]
  assigns _ _ _ := by simp only [mangled_spread, assignFrom]
  item isTarget value rest rewritten same := by
    -- The rest of the items is assigned to what is spread.
    cases isTarget with
    | spread isTarget =>
      simp only [mangled_spread, assignItems, inside.place isTarget.fixed,
        inside.assigns isTarget, same]

theorem isMangledSafely_dot {target : Expr} {name : String} {link : ChainLink}
    {isRemovable : Bool} (inside : IsMangledSafely host looseAllowed target)
    (continues : link = .continued → target.isChainLink) :
    IsMangledSafely host looseAllowed (dot loc target name link isRemovable) := by
  have place : ((dot loc target name link isRemovable).mangled looseAllowed).refer host =
      (dot loc target name link isRemovable).refer host := by
    simp only [mangled_dot, refer]
    split
    · rfl
    · -- A link that continues a chain needs more than the value of its target.
      have chain : link = .continued →
          (target.mangled looseAllowed).refer host = target.refer host := by
        intro continued
        exact inside.place (fixed_of_isChainLink (continues continued))
      exact host.follow_congr inside.value chain _
  refine isMangledSafely_of_place rfl (by simp [isPlainItem]) place ?_
  intro _ place source
  simp only [mangled_dot, assignFrom]

theorem isMangledSafely_index {target key : Expr} {link : ChainLink} {isRemovable : Bool}
    (inside : IsMangledSafely host looseAllowed target)
    (keyInside : IsMangledSafely host looseAllowed key)
    (continues : link = .continued → target.isChainLink) :
    IsMangledSafely host looseAllowed (index loc target key link isRemovable) := by
  have keySame : host.value ((key.mangled looseAllowed).refer host) = host.value (key.refer host) :=
    keyInside.value
  have place : ((index loc target key link isRemovable).mangled looseAllowed).refer host =
      (index loc target key link isRemovable).refer host := by
    simp only [mangled_index, refer, keySame]
    split
    · rfl
    · have chain : link = .continued →
          (target.mangled looseAllowed).refer host = target.refer host := by
        intro continued
        exact inside.place (fixed_of_isChainLink (continues continued))
      exact host.follow_congr inside.value chain _
  refine isMangledSafely_of_place rfl (by simp [isPlainItem]) place ?_
  intro _ place source
  simp only [mangled_index, assignFrom]

/-- A call hands on what its target refers to, so that has to be the same. -/
theorem isMangledSafely_call {target : Expr} {args : List Expr} {link : ChainLink} {isPure : Bool}
    {kind : CallKind} (inside : IsMangledSafely host looseAllowed target)
    (each : ∀ arg ∈ args, IsMangledSafely host looseAllowed arg)
    (fixed : target.unwrapped.isCoalescing = false) :
    IsMangledSafely host looseAllowed (call loc target args link isPure kind) := by
  have place : ((call loc target args link isPure kind).mangled looseAllowed).refer host =
      (call loc target args link isPure kind).refer host := by
    rw [mangled_call, refer, refer, inside.place fixed,
      evalList_congr fun arg member => (each arg member).value]
  refine isMangledSafely_of_place rfl (by simp [isPlainItem]) place ?_
  intro isTarget
  cases isTarget

theorem isMangledSafely_template {tag : Option Expr} {head : List UInt16}
    {substitutions : List TemplatePart}
    (inside : ∀ function ∈ tag, IsMangledSafely host looseAllowed function)
    (each : ∀ part ∈ substitutions, IsMangledSafely host looseAllowed part.value)
    (fixed : ∀ function ∈ tag, function.unwrapped.isCoalescing = false) :
    IsMangledSafely host looseAllowed (template loc tag head substitutions) := by
  cases tag with
  | none =>
    refine isMangledSafely_of_value rfl ?_ nofun
    rw [mangled_template, Option.map_none, eval_template_untagged, eval_template_untagged,
      TemplatePart.evalTexts_congr fun part member => (each part member).value]
  | some function =>
    have place : ((template loc (some function) head substitutions).mangled looseAllowed).refer
        host = (template loc (some function) head substitutions).refer host := by
      rw [mangled_template, Option.map_some, refer, refer,
        (inside function rfl).place (fixed function rfl),
        TemplatePart.evalValues_congr fun part member => (each part member).value]
    refine isMangledSafely_of_place rfl (by simp [isPlainItem]) place ?_
    intro isTarget
    cases isTarget

theorem isMangledSafely_inlinedEnum {value : Expr} {comment : String}
    (inside : IsMangledSafely host looseAllowed value) :
    IsMangledSafely host looseAllowed (inlinedEnum loc value comment) := by
  have same : ((inlinedEnum loc value comment).mangled looseAllowed).eval host =
      (inlinedEnum loc value comment).eval host := by
    rw [mangled_inlinedEnum, eval_inlinedEnum, eval_inlinedEnum, inside.value]
  refine isMangledSafely_of_target rfl (by simp [isPlainItem]) same ?_ ?_
  · -- The wrapper is looked through, so what is wrapped is fixed as well.
    intro fixed
    rw [mangled_inlinedEnum, refer, refer, inside.place fixed]
  · intro isTarget
    cases isTarget

theorem isMangledSafely_new {target : Expr} {args : List Expr} {isPure : Bool}
    (inside : IsMangledSafely host looseAllowed target)
    (each : ∀ arg ∈ args, IsMangledSafely host looseAllowed arg) :
    IsMangledSafely host looseAllowed (new loc target args isPure) := by
  have targetSame : host.value ((target.mangled looseAllowed).refer host) =
      host.value (target.refer host) := inside.value
  have place : ((new loc target args isPure).mangled looseAllowed).refer host =
      (new loc target args isPure).refer host := by
    rw [mangled_new, refer, refer, targetSame,
      evalList_congr fun arg member => (each arg member).value]
  exact isMangledSafely_of_value rfl (congrArg host.value place) nofun

theorem isMangledSafely_conditional {test yes no : Expr}
    (tested : IsMangledSafely host looseAllowed test)
    (yesInside : IsMangledSafely host looseAllowed yes)
    (noInside : IsMangledSafely host looseAllowed no) :
    IsMangledSafely host looseAllowed (conditional loc test yes no) := by
  refine isMangledSafely_of_value rfl ?_ nofun
  rw [mangled_conditional, eval_conditional, eval_conditional, tested.value, yesInside.value,
    noInside.value]

theorem isMangledSafely_classExpr {definition : Class}
    (each : ∀ e ∈ definition.operands, IsMangledSafely host looseAllowed e) :
    IsMangledSafely host looseAllowed (classExpr loc definition) := by
  refine isMangledSafely_of_value rfl ?_ nofun
  rw [mangled_classExpr, eval_classExpr, eval_classExpr,
    Class.eval_congr loc fun e member => (each e member).value]

/-- A negation has the value of its folded form. -/
theorem eval_mangled_not {value : Expr} {fromIdentifier : Bool}
    (inside : IsMangledSafely host looseAllowed value) :
    ((unary loc .logicalNot value fromIdentifier).mangled looseAllowed).eval host =
      (unary loc .logicalNot value fromIdentifier).eval host := by
  have operand : (unary loc .logicalNot (value.mangled looseAllowed) fromIdentifier).eval host =
      (unary loc .logicalNot value fromIdentifier).eval host := by
    rw [eval_unary host loc rfl, eval_unary host loc rfl, inside.value]
  rw [mangled_not, ← operand]
  cases folded : (value.mangled looseAllowed).negate? with
  | none => rfl
  | some negated => exact eval_negate? host folded fromIdentifier

theorem isMangledSafely_unary {op : Operator} {value : Expr} {fromIdentifier : Bool}
    (inside : IsMangledSafely host looseAllowed value)
    (updates : op.isUpdate → value.IsTarget)
    (fixed : op = .delete ∨ op = .typeof → value.unwrapped.isCoalescing = false) :
    IsMangledSafely host looseAllowed (unary loc op value fromIdentifier) := by
  refine isMangledSafely_of_value rfl ?_ nofun
  cases op with
  | logicalNot => exact eval_mangled_not loc inside
  | prefixIncrement | prefixDecrement | postfixIncrement | postfixDecrement =>
    -- What is updated is a place, which is found in the same way.
    have same := inside.place (updates rfl).fixed
    rw [mangled_unary loc (by simp), eval_unary_update host loc (by simp),
      eval_unary_update host loc (by simp), same]
  | delete =>
    rw [mangled_unary loc (by simp), eval_unary_delete, eval_unary_delete,
      inside.place (fixed (.inl rfl))]
  | typeof =>
    have bare := identifierRef?_mangled looseAllowed (fixed (.inr rfl))
    rw [mangled_unary loc (by simp)]
    cases named : if fromIdentifier then value.identifierRef? else none with
    | none =>
      rw [eval_unary_typeof host loc (by rw [bare, named]), eval_unary_typeof host loc named,
        inside.value]
    | some ref =>
      obtain ⟨rfl, named⟩ : fromIdentifier = true ∧ value.identifierRef? = some ref := by
        simpa using named
      rw [eval_unary_typeof_identifier host loc (bare.trans named),
        eval_unary_typeof_identifier host loc named]
  | _ =>
    rw [mangled_unary loc (by simp), eval_unary host loc rfl, eval_unary host loc rfl,
      inside.value]

/-- Patterns with a default are told apart from places. -/
theorem IsTarget.isDefaulted_mangled {e : Expr} (isTarget : e.IsTarget) :
    (e.mangled looseAllowed).isDefaulted = e.isDefaulted := by
  cases isTarget with
  | defaulted inner => rw [mangled_binary _ (by simp) (by simp) (by simp)]; rfl
  | identifier | missing => rw [mangled_of_isLeaf rfl]
  | _ => simp [isDefaulted]

/-- A binary operation has the same value before it is rewritten itself. -/
theorem eval_binary_mangled {op : Operator} {left right : Expr}
    (leftInside : IsMangledSafely host looseAllowed left)
    (rightInside : IsMangledSafely host looseAllowed right)
    (assigns : op.isAssignment → left.IsTarget) :
    (binary loc op (left.mangled looseAllowed) (right.mangled looseAllowed)).eval host =
      (binary loc op left right).eval host := by
  have place : op.isAssignment → (left.mangled looseAllowed).refer host = left.refer host :=
    fun assignment => leftInside.place (assigns assignment).fixed
  cases compound : op.compound? with
  | some base =>
    have assignment : op.isAssignment := by cases op <;> first | rfl | cases compound
    rw [eval_binary_compound host loc compound, eval_binary_compound host loc compound,
      place assignment, rightInside.value]
  | none =>
    cases op with
    | comma | logicalAnd | logicalOr | nullishCoalescing =>
      simp only [eval_comma, eval_and, eval_or, eval_coalesce, leftInside.value, rightInside.value]
    | assignment =>
      -- The target may be a pattern, which is assigned to part by part.
      have isTarget := assigns rfl
      rw [eval_assignment, eval_assignment, isTarget.isDefaulted_mangled, place rfl,
        rightInside.value, leftInside.assigns isTarget]
    | assignmentLogicalAnd =>
      rw [eval_assignmentLogicalAnd, eval_assignmentLogicalAnd, place rfl, rightInside.value]
    | assignmentLogicalOr =>
      rw [eval_assignmentLogicalOr, eval_assignmentLogicalOr, place rfl, rightInside.value]
    | assignmentNullishCoalescing =>
      rw [eval_assignmentNullishCoalescing, eval_assignmentNullishCoalescing, place rfl,
        rightInside.value]
    | _ =>
      first
      | cases compound; done
      | rw [eval_binary host loc rfl, eval_binary host loc rfl, leftInside.value,
          rightInside.value]

/-- A binary operation has the same value after it has been rewritten itself. -/
theorem eval_mangled_binary {op : Operator} {left right : Expr}
    (leftInside : IsMangledSafely host looseAllowed left)
    (rightInside : IsMangledSafely host looseAllowed right)
    (assigns : op.isAssignment → left.IsTarget) :
    ((binary loc op left right).mangled looseAllowed).eval host =
      (binary loc op left right).eval host := by
  have operands := eval_binary_mangled loc leftInside rightInside assigns
  by_cases coalesces : op = .nullishCoalescing
  · subst coalesces
    rw [mangled_coalesce, eval_mangleNullish, operands]
  by_cases strict : op = .strictEquality ∨ op = .strictInequality
  · rw [mangled_strict loc strict, eval_mangleStrict host strict, operands]
  -- Any other operation stays, with operands that have been rewritten.
  obtain ⟨notEqual, notUnequal⟩ := not_or.mp strict
  rw [mangled_binary loc notEqual notUnequal coalesces, operands]

theorem isMangledSafely_binary {op : Operator} {left right : Expr}
    (leftInside : IsMangledSafely host looseAllowed left)
    (rightInside : IsMangledSafely host looseAllowed right)
    (assigns : op.isAssignment → left.IsTarget) :
    IsMangledSafely host looseAllowed (binary loc op left right) := by
  have value := eval_mangled_binary loc leftInside rightInside assigns
  by_cases assignment : op = .assignment
  · subst assignment
    -- An assignment may also be a pattern with a default.
    have stays : (binary loc .assignment left right).mangled looseAllowed =
        binary loc .assignment (left.mangled looseAllowed) (right.mangled looseAllowed) :=
      mangled_binary loc (by simp) (by simp) (by simp) left right
    have plain : ((binary loc .assignment left right).mangled looseAllowed).isPlainItem := by
      rw [stays]
      rfl
    refine isMangledSafely_of_target rfl plain value (refer_mangled_of_value rfl value) ?_
    intro isTarget target source
    cases isTarget with
    | defaulted inner =>
      have fallback : host.value ((right.mangled looseAllowed).refer host) =
          host.value (right.refer host) := rightInside.value
      simp only [stays, assignFrom, if_true, leftInside.place inner.fixed,
        leftInside.assigns inner, fallback]
  · have notTarget : ¬(binary loc op left right).IsTarget := by
      intro isTarget
      cases isTarget
      exact assignment rfl
    exact isMangledSafely_of_value rfl value notTarget

/-- Rewriting keeps what an expression is, whose targets, chains and positions are fit for it. -/
theorem isMangledSafely_of_everywhere {e : Expr}
    (valid : e.Everywhere fun part => part.IsValid ∧ part.HasFixedPosition) :
    IsMangledSafely host looseAllowed e := by
  induction valid with
  | @intro e here inside each =>
    obtain ⟨⟨assigns, continues⟩, fixed⟩ := here
    cases e with
    | null | undefined | missing | boolean | number | bigInt | string | regExp | this | identifier
    | importIdentifier | importMeta => exact isMangledSafely_of_eq (mangled_of_isLeaf rfl)
    | function loc func =>
      refine isMangledSafely_of_value rfl ?_ nofun
      -- What a function does is for the world to say.
      obtain ⟨rewritten, same⟩ := mangled_function loc looseAllowed func
      rw [same, eval_function, eval_function]
    | arrow loc params body isAsync prefersExpr =>
      refine isMangledSafely_of_value rfl ?_ nofun
      obtain ⟨_, _, same⟩ := mangled_arrow loc looseAllowed params body isAsync prefersExpr
      rw [same, eval_arrow, eval_arrow]
    | array loc items => exact isMangledSafely_array loc each
    | object loc properties => exact isMangledSafely_object loc each
    | classExpr loc definition => exact isMangledSafely_classExpr loc each
    | spread loc value => exact isMangledSafely_spread loc (each value (by simp [operands, parts]))
    | inlinedEnum loc value comment =>
      exact isMangledSafely_inlinedEnum loc (each value (by simp [operands, parts]))
    | dot loc target name link isRemovable =>
      exact isMangledSafely_dot loc (each target (by simp [operands, parts])) fun continued =>
        continues target (by simp [continued?, continued])
    | index loc target key link isRemovable =>
      exact isMangledSafely_index loc (each target (by simp [operands, parts]))
        (each key (by simp [operands, parts])) fun continued =>
          continues target (by simp [continued?, continued])
    | call loc target args link isPure kind =>
      exact isMangledSafely_call loc (each target (by simp [operands, parts]))
        (fun arg member => each arg (by simp [operands, parts, member])) (fixed target rfl)
    | new loc target args isPure =>
      exact isMangledSafely_new loc (each target (by simp [operands, parts]))
        fun arg member => each arg (by simp [operands, parts, member])
    | template loc tag head substitutions =>
      refine isMangledSafely_template loc (fun function held => each function ?_)
        (fun part member => each part.value ?_) fixed
      · exact List.mem_append_left _ (by simpa using held)
      · exact List.mem_append_right _ (List.mem_map_of_mem member)
    | conditional loc test yes no =>
      exact isMangledSafely_conditional loc (each test (by simp [operands, parts]))
        (each yes (by simp [operands, parts])) (each no (by simp [operands, parts]))
    | unary loc op value fromIdentifier =>
      exact isMangledSafely_unary loc (each value (by simp [operands, parts]))
        (fun updates => assigns value (by simp [assigned?, updates]))
        fun matters => fixed value (by simp [referencePosition?, matters])
    | binary loc op left right =>
      exact isMangledSafely_binary loc (each left (by simp [operands, parts]))
        (each right (by simp [operands, parts]))
        fun assignment => assigns left (by simp [assigned?, assignment])

end

/--
Rewriting an expression and everything in it keeps its value.

In every world, whichever comparisons may be loosened, the rewritten expression makes the same
events happen in the same order, leaves the same world, and results in the same value or throws the
same.
-/
theorem eval_mangled (host : Host W) (looseAllowed : Bool) {e : Expr}
    (valid : e.Everywhere fun part => part.IsValid ∧ part.HasFixedPosition) :
    (e.mangled looseAllowed).eval host = e.eval host :=
  (isMangledSafely_of_everywhere valid).value

/-- What is assigned is chosen, its negation is folded and the comparison in that is loosened. -/
theorem eval_mangled_assignment :
    let name := identifier default default false false
    let comparison := fun op =>
      binary default op (unary default .typeof name true) (string default [])
    let e := binary default .assignment name (binary default .nullishCoalescing (null default)
      (unary default .logicalNot (comparison .strictEquality) false))
    e.mangled true = binary default .assignment name (comparison .inequality) ∧
      e.Everywhere (fun part => part.IsValid ∧ part.HasFixedPosition) ∧
      (e.mangled true).eval (default : Host Unit) = e.eval default := by
  intro name comparison e
  let Fit : Expr → Prop := fun part => part.IsValid ∧ part.HasFixedPosition
  -- Only the assignment and the type test look at more than the values of their operands.
  have fit : ∀ part : Expr, part.assigned? = none → part.continued? = none →
      part.referencePosition? = none → Fit part := by
    intro part assigns continues position
    refine ⟨⟨?_, ?_⟩, ?_⟩
    · simp [assigns]
    · simp [continues]
    · simp [HasFixedPosition, position]
  have leaf : ∀ part : Expr, part.isLeaf → part.Everywhere Fit := by
    intro part isLeaf
    cases part <;> first
      | cases isLeaf; done
      | exact .intro (fit _ rfl rfl rfl) (by simp [operands, parts])
  have nameFit := leaf name rfl
  have asksType : (unary default .typeof name true).Everywhere Fit := by
    refine .intro ⟨⟨?_, ?_⟩, ?_⟩ (List.forall_mem_singleton.mpr nameFit)
    · simp [assigned?, Operator.isUpdate]
    · simp [continued?]
    · simp [HasFixedPosition, referencePosition?, name, unwrapped, isCoalescing]
  have compares : (comparison .strictEquality).Everywhere Fit :=
    .intro (fit _ rfl rfl rfl) (List.forall_mem_cons.mpr
      ⟨asksType, List.forall_mem_singleton.mpr (leaf _ rfl)⟩)
  have negates : (unary default .logicalNot (comparison .strictEquality) false).Everywhere Fit :=
    .intro (fit _ rfl rfl rfl) (List.forall_mem_singleton.mpr compares)
  have chooses : (binary default .nullishCoalescing (null default)
      (unary default .logicalNot (comparison .strictEquality) false)).Everywhere Fit :=
    .intro (fit _ rfl rfl rfl) (List.forall_mem_cons.mpr
      ⟨leaf _ rfl, List.forall_mem_singleton.mpr negates⟩)
  have valid : e.Everywhere Fit := by
    refine .intro ⟨⟨?_, ?_⟩, ?_⟩ (List.forall_mem_cons.mpr
      ⟨nameFit, List.forall_mem_singleton.mpr chooses⟩)
    · intro target found
      cases found
      exact .identifier
    · simp [continued?, e]
    · simp [HasFixedPosition, referencePosition?, e]
  refine ⟨?_, valid, eval_mangled default true valid⟩
  -- From the inside out: the comparison is loosened, then its negation turned, and then chosen.
  have loosened : (comparison .strictEquality).mangled true = comparison .equality := by
    rw [mangled_strict default (.inl rfl), mangled_unary default (by simp), mangled_of_isLeaf rfl,
      mangled_of_isLeaf rfl]
    rfl
  have turned : (unary default .logicalNot (comparison .strictEquality) false).mangled true =
      comparison .inequality := by
    rw [mangled_not, loosened]
    rfl
  rw [mangled_binary default (by simp) (by simp) (by simp), mangled_coalesce, turned,
    mangled_of_isLeaf rfl, mangled_of_isLeaf rfl]
  rfl

end EcmaPrune.Expr
