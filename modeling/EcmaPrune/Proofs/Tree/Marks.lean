import EcmaPrune.Proofs.Tree.Operands
import EcmaPrune.Tree.Visit

/-!
The marks of the expressions that a walk enters, in order.

A mark says what an expression is by itself, whatever its operands are. What is compared of two
trees is a reading of their marks, which may leave some of them out and tell others less apart.
-/

namespace EcmaPrune

/-- What an expression is by itself, as far as rewriting may not make it up. -/
inductive Mark where
  | identifier (ref : Ref)
  | importIdentifier (ref : Ref)
  | dot (name : String) (link : ChainLink)
  | index (link : ChainLink)
  | call (link : ChainLink)
  | new
  | function
  | arrow
  | classExpr
  /-- A comparison by `==` or `!=`. -/
  | looseEquality
  /-- A choice by `??`; the flag says that its left side comes down to a string literal. -/
  | coalescing (exposesString : Bool)
  | other
deriving DecidableEq, Repr

namespace Expr

/-- Comes down to `null` or `undefined` where every known choice by `??` in it is made. -/
def comesToNullish : Expr → Bool
  | null _ | undefined _ => true
  | inlinedEnum _ value _ => value.comesToNullish
  | binary _ .nullishCoalescing left right => left.comesToNullish && right.comesToNullish
  | _ => false

/-- Comes down to a string literal where every known choice by `??` in it is made. -/
def comesToString : Expr → Bool
  | string .. => true
  | binary _ .nullishCoalescing left right =>
    left.comesToString || (left.comesToNullish && right.comesToString)
  | _ => false

/-- The mark of an expression. -/
def mark : Expr → Mark
  | identifier _ ref _ _ => .identifier ref
  | importIdentifier _ ref => .importIdentifier ref
  | dot _ _ name link _ => .dot name link
  | index _ _ _ link _ => .index link
  | call _ _ _ link _ _ => .call link
  | new .. => .new
  | function .. => .function
  | arrow .. => .arrow
  | classExpr .. => .classExpr
  | binary _ .equality _ _ | binary _ .inequality _ _ => .looseEquality
  | binary _ .nullishCoalescing left _ => .coalescing left.comesToString
  | _ => .other

end Expr

section

variable {α : Type} (f : Mark → Option α)

/-- What is read off one step of a walk. -/
def Visit.read : Visit → Option α
  | .enter e => f e.mark
  | _ => none

/-- What is read off the expressions that a walk enters. -/
def readings (visits : List Visit) : List α := visits.filterMap (Visit.read f)

@[simp] theorem readings_nil : readings f [] = [] := rfl

@[simp] theorem readings_append (first second : List Visit) :
    readings f (first ++ second) = readings f first ++ readings f second :=
  List.filterMap_append

@[simp] theorem readings_enter (e : Expr) (rest : List Visit) :
    readings f (.enter e :: rest) = (f e.mark).toList ++ readings f rest := by
  cases found : f e.mark <;> simp [readings, Visit.read, found]

@[simp] theorem readings_leave (e : Expr) (rest : List Visit) :
    readings f (.leave e :: rest) = readings f rest := rfl

@[simp] theorem readings_stmt (s : Stmt) (rest : List Visit) :
    readings f (.stmt s :: rest) = readings f rest := rfl

@[simp] theorem readings_binding (b : Binding) (rest : List Visit) :
    readings f (.binding b :: rest) = readings f rest := rfl

@[simp] theorem readings_func (func : Func) (rest : List Visit) :
    readings f (.func func :: rest) = readings f rest := rfl

@[simp] theorem readings_arrow (rest : List Visit) :
    readings f (.arrow :: rest) = readings f rest := rfl

@[simp] theorem readings_staticBlock (rest : List Visit) :
    readings f (.staticBlock :: rest) = readings f rest := rfl

@[simp] theorem readings_property (p : Property) (rest : List Visit) :
    readings f (.property p :: rest) = readings f rest := rfl

/-- What is read off an expression and all that is in it. -/
def Expr.marks (e : Expr) : List α := readings f e.visits

/-- What is read off an expression that may be absent. -/
def Expr.optionMarks (e : Option Expr) : List α := readings f (Expr.visitsOption e)

-- The equations of the walk are worked out once, for all the proofs below.
attribute [local simp] Expr.visits Expr.visitsList Expr.visitsOption TemplatePart.visitsList
  Property.visits Property.visitsList

@[simp] theorem Expr.optionMarks_none : Expr.optionMarks f none = [] := by
  simp [Expr.optionMarks]

@[simp] theorem Expr.optionMarks_some (e : Expr) : Expr.optionMarks f (some e) = e.marks f := by
  rw [Expr.optionMarks, Expr.visitsOption, Expr.marks]

@[simp] theorem Expr.readings_visitsList (items : List Expr) :
    readings f (Expr.visitsList items) = items.flatMap (Expr.marks f) := by
  induction items with
  | nil => simp
  | cons item rest ih => simp [-Expr.visits, ih, Expr.marks]

@[simp] theorem TemplatePart.readings_visitsList (parts : List TemplatePart) :
    readings f (TemplatePart.visitsList parts) = parts.flatMap fun part => part.value.marks f := by
  induction parts with
  | nil => simp
  | cons part rest ih =>
    rcases part with ⟨value, tail⟩
    simp [-Expr.visits, ih, Expr.marks]

/-- What is read off a member: its key, its value, its initializer. -/
def Property.marks (p : Property) : List α :=
  p.key.marks f ++ Expr.optionMarks f p.value ++ Expr.optionMarks f p.initializer

@[simp] theorem Property.readings_visits (p : Property) :
    readings f p.visits = p.marks f := by
  rcases p with ⟨kind, isComputed, isStatic, key, value, initializer⟩
  simp [-Expr.visits, -Expr.visitsOption, Property.marks, Expr.marks, Expr.optionMarks]

@[simp] theorem Property.readings_visitsList (properties : List Property) :
    readings f (Property.visitsList properties) = properties.flatMap (Property.marks f) := by
  induction properties with
  | nil => simp
  | cons p rest ih => simp [-Property.visits, ih]

namespace Expr

-- What is inside is read by its own equations.
attribute [-simp] Expr.visitsList Expr.visitsOption TemplatePart.visitsList Property.visits
  Property.visitsList

attribute [local simp] marks mark

@[simp] theorem marks_array (loc : Loc) (items : List Expr) :
    (array loc items).marks f =
      (f .other).toList ++ items.flatMap (marks f) := by
  simp

@[simp] theorem marks_arrow (loc : Loc) (params : List BindingElement) (body : List Stmt)
    (isAsync prefersExpr : Bool) :
    (arrow loc params body isAsync prefersExpr).marks f =
      (f .arrow).toList ++ (readings f (BindingElement.visitsList params) ++
        readings f (Stmt.visitsList body)) := by
  simp

@[simp] theorem marks_call (loc : Loc) (target : Expr) (args : List Expr) (link : ChainLink)
    (isPure : Bool) (kind : CallKind) :
    (call loc target args link isPure kind).marks f =
      (f (.call link)).toList ++ (target.marks f ++ args.flatMap (marks f)) := by
  simp

@[simp] theorem marks_classExpr (loc : Loc) (definition : Class) :
    (classExpr loc definition).marks f =
      (f .classExpr).toList ++ readings f definition.visits := by
  simp

@[simp] theorem marks_dot (loc : Loc) (target : Expr) (name : String) (link : ChainLink)
    (isRemovable : Bool) :
    (dot loc target name link isRemovable).marks f =
      (f (.dot name link)).toList ++ target.marks f := by
  simp

@[simp] theorem marks_function (loc : Loc) (func : Func) :
    (function loc func).marks f =
      (f .function).toList ++ readings f func.visits := by
  simp

@[simp] theorem marks_conditional (loc : Loc) (test yes no : Expr) :
    (conditional loc test yes no).marks f =
      (f .other).toList ++ (test.marks f ++ yes.marks f ++ no.marks f) := by
  simp

@[simp] theorem marks_index (loc : Loc) (target key : Expr) (link : ChainLink)
    (isRemovable : Bool) :
    (index loc target key link isRemovable).marks f =
      (f (.index link)).toList ++ (target.marks f ++ key.marks f) := by
  simp

@[simp] theorem marks_inlinedEnum (loc : Loc) (value : Expr) (comment : String) :
    (inlinedEnum loc value comment).marks f =
      (f .other).toList ++ value.marks f := by
  simp

@[simp] theorem marks_new (loc : Loc) (target : Expr) (args : List Expr) (isPure : Bool) :
    (new loc target args isPure).marks f =
      (f .new).toList ++ (target.marks f ++ args.flatMap (marks f)) := by
  simp

@[simp] theorem marks_object (loc : Loc) (properties : List Property) :
    (object loc properties).marks f =
      (f .other).toList ++ properties.flatMap (Property.marks f) := by
  simp

@[simp] theorem marks_spread (loc : Loc) (value : Expr) :
    (spread loc value).marks f =
      (f .other).toList ++ value.marks f := by
  simp

@[simp] theorem marks_template (loc : Loc) (tag : Option Expr) (head : List UInt16)
    (parts : List TemplatePart) :
    (template loc tag head parts).marks f =
      (f .other).toList ++ (optionMarks f tag ++ parts.flatMap fun part => part.value.marks f) := by
  simp [optionMarks]

@[simp] theorem marks_unary (loc : Loc) (op : Operator) (value : Expr) (fromIdentifier : Bool) :
    (unary loc op value fromIdentifier).marks f =
      (f .other).toList ++ value.marks f := by
  simp

@[simp] theorem marks_binary (loc : Loc) (op : Operator) (left right : Expr) :
    (binary loc op left right).marks f =
      (f (binary loc op left right).mark).toList ++ (left.marks f ++ right.marks f) := by
  simp [-mark]

@[simp] theorem marks_bigInt (loc : Loc) (literal : String) :
    (bigInt loc literal).marks f = (f .other).toList := by
  simp

@[simp] theorem marks_boolean (loc : Loc) (value : Bool) :
    (boolean loc value).marks f = (f .other).toList := by
  simp

@[simp] theorem marks_identifier (loc : Loc) (ref : Ref) (isRemovable mustKeepInWith : Bool) :
    (identifier loc ref isRemovable mustKeepInWith).marks f = (f (.identifier ref)).toList := by
  simp

@[simp] theorem marks_importIdentifier (loc : Loc) (ref : Ref) :
    (importIdentifier loc ref).marks f = (f (.importIdentifier ref)).toList := by
  simp

@[simp] theorem marks_importMeta (loc : Loc) :
    (importMeta loc).marks f = (f .other).toList := by
  simp

@[simp] theorem marks_missing (loc : Loc) :
    (missing loc).marks f = (f .other).toList := by
  simp

@[simp] theorem marks_null (loc : Loc) :
    (null loc).marks f = (f .other).toList := by
  simp

@[simp] theorem marks_number (loc : Loc) (value : Number) :
    (number loc value).marks f = (f .other).toList := by
  simp

@[simp] theorem marks_regExp (loc : Loc) (text : String) :
    (regExp loc text).marks f = (f .other).toList := by
  simp

@[simp] theorem marks_string (loc : Loc) (value : List UInt16) :
    (string loc value).marks f = (f .other).toList := by
  simp

@[simp] theorem marks_this (loc : Loc) :
    (this loc).marks f = (f .other).toList := by
  simp

@[simp] theorem marks_undefined (loc : Loc) :
    (undefined loc).marks f = (f .other).toList := by
  simp

attribute [-simp] Expr.visits marks mark

@[simp] theorem readings_visits (e : Expr) : readings f e.visits = e.marks f := rfl

@[simp] theorem readings_visitsOption (e : Option Expr) :
    readings f (visitsOption e) = optionMarks f e := rfl

end Expr

end

end EcmaPrune
