import EcmaPrune.Proofs.Rewrite.DiscardParts
import EcmaPrune.Proofs.Tree.SpelledOut

/-! Translations of expressions, and the steps of discarding under each of them. -/

namespace EcmaPrune.Expr

/--
A translation of expressions that goes through them part by part.

It may give a call whose function can be spelled out any form of which no more is known than of a
call. Everything else stays as it is, with its parts translated.
-/
structure IsTranslation (f : Expr → Expr) : Prop where
  leaf {e : Expr} (leaf : e.isLeaf) : f e = e
  function (loc : Loc) (func : Func) : f (function loc func) = function loc func
  arrow (loc : Loc) (params : List BindingElement) (body : List Stmt) (isAsync prefersExpr : Bool) :
    f (arrow loc params body isAsync prefersExpr) = arrow loc params body isAsync prefersExpr
  classExpr (loc : Loc) (definition : Class) :
    f (classExpr loc definition) = classExpr loc definition
  array (loc : Loc) (items : List Expr) : f (array loc items) = array loc (items.map f)
  object (loc : Loc) (properties : List Property) :
    f (object loc properties) = object loc (properties.map (Property.mapExprs f))
  spread (loc : Loc) (value : Expr) : f (spread loc value) = spread loc (f value)
  template (loc : Loc) (tag : Option Expr) (head : List UInt16) (parts : List TemplatePart) :
    f (template loc tag head parts) =
      template loc (tag.map f) head (parts.map (TemplatePart.mapExpr f))
  inlinedEnum (loc : Loc) (value : Expr) (comment : String) :
    f (inlinedEnum loc value comment) = inlinedEnum loc (f value) comment
  dot (loc : Loc) (target : Expr) (name : String) (link : ChainLink) (isRemovable : Bool) :
    f (dot loc target name link isRemovable) = dot loc (f target) name link isRemovable
  index (loc : Loc) (target key : Expr) (link : ChainLink) (isRemovable : Bool) :
    f (index loc target key link isRemovable) = index loc (f target) (f key) link isRemovable
  call {loc : Loc} {target : Expr} {args : List Expr} {link : ChainLink} {isPure : Bool}
    {kind : CallKind} (stays : (call loc target args link isPure kind).inPlace? = none) :
    f (call loc target args link isPure kind) = call loc (f target) (args.map f) link isPure kind
  new (loc : Loc) (target : Expr) (args : List Expr) (isPure : Bool) :
    f (new loc target args isPure) = new loc (f target) (args.map f) isPure
  conditional (loc : Loc) (test yes no : Expr) :
    f (conditional loc test yes no) = conditional loc (f test) (f yes) (f no)
  unary (loc : Loc) (op : Operator) (value : Expr) (fromIdentifier : Bool) :
    f (unary loc op value fromIdentifier) = unary loc op (f value) fromIdentifier
  binary (loc : Loc) (op : Operator) (left right : Expr) :
    f (binary loc op left right) = binary loc op (f left) (f right)
  loc (e : Expr) : (f e).loc = e.loc
  isIdentifier (e : Expr) : (f e).isIdentifier = e.isIdentifier
  stringUnits? (e : Expr) : (f e).stringUnits? = e.stringUnits?
  primitiveType (e : Expr) : (f e).primitiveType = e.primitiveType
  producesPrimitive (e : Expr) : (f e).producesPrimitive = e.producesPrimitive
  isGuardedBy (value guard : Expr) (onYes : Bool) (unbound : Ref → Bool) :
    (f value).isGuardedBy (f guard) onYes unbound = value.isGuardedBy guard onYes unbound
  nullGuard? (unbound : Ref → Bool) (op : Operator) (e : Expr) :
    (f e).nullGuard? unbound op = e.nullGuard? unbound op
  insertChain? {guard : Expr} (named : guard.isIdentifier) (e : Expr) :
    (f e).insertChain? guard = (e.insertChain? guard).map f
  takesTest {e : Expr} : e.takesTest → (f e).takesTest
  blankStrings (e : Expr) : (f e).blankStrings = (f e.blankStrings.1, e.blankStrings.2)
  simplifyCondition (e : Expr) : (f e).simplifyCondition = f e.simplifyCondition

/-- Leaving every expression as it stands is a translation. -/
theorem isTranslation_id : IsTranslation id := by
  have members : Property.mapExprs id = id := by
    funext p
    rcases p with ⟨kind, isComputed, isStatic, key, value, initializer⟩
    simp [Property.mapExprs]
  have substitutions : TemplatePart.mapExpr id = id := by
    funext part
    rcases part with ⟨value, tail⟩
    rfl
  constructor <;> simp [members, substitutions]

namespace IsTranslation

variable {f : Expr → Expr} (translation : IsTranslation f)
include translation

theorem comma (a b : Expr) : f (Expr.comma a b) = Expr.comma (f a) (f b) := by
  rw [Expr.comma, Expr.comma, translation.binary, translation.loc]

theorem emptyString (loc : Loc) : f (Expr.emptyString loc) = Expr.emptyString loc :=
  translation.leaf rfl

theorem logicalOrChain (cx : DiscardContext) (loc : Loc) (op : Operator) (left right : Expr) :
    f (logicalOrChain cx loc op left right) = Expr.logicalOrChain cx loc op (f left) (f right) := by
  simp only [Expr.logicalOrChain, translation.nullGuard?]
  cases cx.chainsSupported with
  | false => exact translation.binary ..
  | true =>
    cases guarded : left.nullGuard? cx.unbound op with
    | none => exact translation.binary ..
    | some guard =>
      -- A guard is a name, which every translation leaves as it is.
      have named : guard.isIdentifier := by
        obtain ⟨_, _, _, rfl, _⟩ := eq_of_nullGuard? guarded
        rfl
      simp only [if_true, Option.bind_some, translation.insertChain? named]
      cases right.insertChain? guard with
      | none => exact translation.binary ..
      | some chain => rfl

/-- A chain may take in a test as well once both are translated. -/
theorem takesTest_behind {cx : DiscardContext} {op : Operator} {test rest : Expr}
    (takes : TakesTest cx op test rest) : TakesTest cx op (f test) (f rest) := by
  intro supported guard guarded inserted
  rw [translation.nullGuard?] at guarded
  have named : guard.isIdentifier := by
    obtain ⟨_, _, _, rfl, _⟩ := eq_of_nullGuard? guarded
    rfl
  rw [translation.insertChain? named, Option.isSome_map] at inserted
  exact translation.takesTest (takes supported guard guarded inserted)

/-- A name that a test is about stays as it is. -/
theorem guarded {value guard : Expr} {onYes : Bool} {unbound : Ref → Bool}
    (guarded : value.isGuardedBy guard onYes unbound) : f value = value := by
  cases value with
  | identifier => exact translation.leaf rfl
  | _ => cases guarded

/-- What is in a sequence is translated by itself. -/
theorem sequence (exprs : List (Option Expr)) :
    (sequence exprs).map f = Expr.sequence (exprs.map (Option.map f)) := by
  -- What is missing is left out first, and the rest is joined from the left.
  have present : (exprs.map (Option.map f)).reduceOption = exprs.reduceOption.map f := by
    show List.filterMap id _ = (List.filterMap id exprs).map f
    simp [List.filterMap_map, List.map_filterMap]
  have folded : ∀ (rest : List Expr) (first : Expr),
      (rest.map f).foldl Expr.comma (f first) = f (rest.foldl Expr.comma first) := by
    intro rest
    induction rest with
    | nil => exact fun _ => rfl
    | cons e rest ih => exact fun first => by simp [← translation.comma, ih]
  rw [Expr.sequence, Expr.sequence, present]
  cases exprs.reduceOption with
  | nil => rfl
  | cons first rest => simp [folded]

/-- Of a list whose items leave something each, what is left is translated item by item. -/
theorem sequence_map {α : Type} (items : List α) (rest : α → Option Expr) :
    (Expr.sequence (items.map rest)).map f =
      Expr.sequence (items.map fun item => (rest item).map f) := by
  rw [translation.sequence, List.map_map]
  rfl

theorem discardSum (e : Expr) : (discardSum e).map f = Expr.discardSum (f e) := by
  -- Nothing is left of a sum of which only a text is left.
  have bare : ∀ e, Expr.discardSum e =
      if e.blankStrings.1.stringUnits?.isSome && e.blankStrings.2 then none
      else some e.blankStrings.1 := by
    intro e
    rw [Expr.discardSum]
    rcases e.blankStrings with ⟨blanked, isConcatenation⟩
    cases blanked <;> cases isConcatenation <;> rfl
  rw [bare, bare, translation.blankStrings, translation.stringUnits?]
  split <;> rfl

theorem bareTemplate (parts : List TemplatePart) :
    (bareTemplate parts).map f = Expr.bareTemplate (parts.map (TemplatePart.mapExpr f)) := by
  cases parts with
  | nil => rfl
  | cons first rest =>
    simp [Expr.bareTemplate, translation.template, TemplatePart.mapExpr, translation.loc]

/-- Substitutions stay together or come apart in the same way. -/
theorem discardParts (pending : List TemplatePart) (parts : List (TemplatePart × Option Expr)) :
    (discardParts pending parts).map (Option.map f) =
      Expr.discardParts (pending.map (TemplatePart.mapExpr f))
        (parts.map fun part => (part.1.mapExpr f, part.2.map f)) := by
  fun_induction Expr.discardParts pending parts with
  | case1 pending => simp [Expr.discardParts, translation.bareTemplate]
  | case2 pending part rest parts isUnknown ih =>
    simpa [Expr.discardParts, isUnknown, TemplatePart.mapExpr, translation.primitiveType] using ih
  | case3 pending part rest parts isKnown ih =>
    simpa [Expr.discardParts, isKnown, TemplatePart.mapExpr, translation.primitiveType,
      translation.bareTemplate] using ih

theorem discardKey (key : Expr) (rest : Option Expr) :
    (discardKey key rest).map f = Expr.discardKey (f key) (rest.map f) := by
  simp only [Expr.discardKey, translation.primitiveType]
  split
  · rw [Option.map_some, translation.binary, translation.emptyString, translation.loc]
  · rfl

theorem trimProperty (p : Property) (rest : Option Expr) :
    (trimProperty p rest).map (Property.mapExprs f) =
      Expr.trimProperty (p.mapExprs f) (rest.map f) := by
  rcases p with ⟨kind, isComputed, isStatic, key, value, initializer⟩
  simp only [Expr.trimProperty, Property.mapExprs]
  by_cases spreads : kind == .spread
  · simp [spreads, Property.mapExprs]
  · cases rest with
    | some value => simp [spreads, Property.mapExprs]
    | none =>
      -- A value of which nothing is left becomes a zero behind the key.
      have zero : ∀ loc, f (number loc .zero) = number loc .zero := fun _ => translation.leaf rfl
      cases isComputed <;> simp [spreads, Property.mapExprs, zero, translation.loc]

end IsTranslation

end EcmaPrune.Expr
