import EcmaPrune.Proofs.Tree.Parts

/-! What evaluating an expression or assigning to it may evaluate, and the shapes this relies on. -/

namespace EcmaPrune

/-- The expressions in a member of an object literal, of an object pattern or of a class. -/
def Property.operands (p : Property) : List Expr := p.parts ++ p.initializer.toList

/-- The expressions in a member of a class, without those inside static blocks. -/
def ClassMember.operands : ClassMember → List Expr
  | .property p => p.operands
  | .staticBlock _ => []

/-- The expressions in a class, without those inside functions and static blocks. -/
def Class.operands (c : Class) : List Expr :=
  c.superclass.toList ++ c.members.flatMap ClassMember.operands

/-- Puts something else in the place of a substitution's value. -/
def TemplatePart.mapExpr (f : Expr → Expr) (part : TemplatePart) : TemplatePart :=
  { part with value := f part.value }

/-- Puts something else in the place of each expression of a member. -/
def Property.mapExprs (f : Expr → Expr) (p : Property) : Property :=
  { p with key := f p.key, value := p.value.map f, initializer := p.initializer.map f }

/-- Puts something else in the place of each expression or static block of a class member. -/
def ClassMember.mapExprs (f : Expr → Expr) (block : List Stmt → List Stmt) :
    ClassMember → ClassMember
  | .property p => .property (p.mapExprs f)
  | .staticBlock body => .staticBlock (block body)

/-- Puts something else in the place of each expression or static block of a class. -/
def Class.mapExprs (f : Expr → Expr) (block : List Stmt → List Stmt) (c : Class) : Class :=
  { c with
    superclass := c.superclass.map f
    members := c.members.map (ClassMember.mapExprs f block) }

/-- Increments and decrements, which assign to their operand. -/
def Operator.isUpdate : Operator → Bool
  | prefixIncrement | prefixDecrement | postfixIncrement | postfixDecrement => true
  | _ => false

namespace Expr

/-- The expressions directly inside an expression, without those inside functions. -/
def operands : Expr → List Expr
  | object _ properties => properties.flatMap Property.operands
  | classExpr _ definition => definition.operands
  | e => e.parts

/-- An expression that no other expression is inside of. -/
def isLeaf : Expr → Bool
  | null _ | undefined _ | missing _ | boolean .. | number .. | bigInt .. | string .. | regExp ..
  | this _ | identifier .. | importIdentifier .. | importMeta _ => true
  | _ => false

/-- The choice of a replacement for a nullish value. -/
def isCoalescing : Expr → Bool
  | binary _ op _ _ => op == .nullishCoalescing
  | _ => false

/-- A property of an expression and of everything in it that is not inside a function. -/
inductive Everywhere (holds : Expr → Prop) : Expr → Prop
  | intro {e : Expr} (here : holds e) (inside : ∀ operand ∈ e.operands, Everywhere holds operand) :
    Everywhere holds e

/--
What may be assigned to: a place, or a pattern of such.

Keys of object patterns are computed or are literals.
-/
inductive IsTarget : Expr → Prop
  | identifier {loc : Loc} {ref : Ref} {isRemovable mustKeepInWith : Bool} :
    IsTarget (identifier loc ref isRemovable mustKeepInWith)
  | dot {loc : Loc} {target : Expr} {name : String} {link : ChainLink} {isRemovable : Bool} :
    IsTarget (dot loc target name link isRemovable)
  | index {loc : Loc} {target key : Expr} {link : ChainLink} {isRemovable : Bool} :
    IsTarget (index loc target key link isRemovable)
  /-- A hole of an array pattern. -/
  | missing {loc : Loc} : IsTarget (missing loc)
  | spread {loc : Loc} {target : Expr} (inner : IsTarget target) : IsTarget (spread loc target)
  | array {loc : Loc} {items : List Expr} (each : ∀ item ∈ items, IsTarget item) :
    IsTarget (array loc items)
  | object {loc : Loc} {properties : List Property}
    (keys : ∀ p ∈ properties, p.kind ≠ .spread → p.isComputed = false →
      p.key.isPrimitiveLiteralKind)
    (values : ∀ p ∈ properties, ∀ target ∈ p.value, IsTarget target) :
    IsTarget (object loc properties)
  | defaulted {loc : Loc} {target fallback : Expr} (inner : IsTarget target) :
    IsTarget (binary loc .assignment target fallback)

/-- What an expression itself assigns to. -/
def assigned? : Expr → Option Expr
  | binary _ op target _ => if op.isAssignment then some target else none
  | unary _ op target _ => if op.isUpdate then some target else none
  | _ => none

/-- The target of a link that belongs to the same optional chain. -/
def continued? : Expr → Option Expr
  | dot _ target _ link _ | index _ target _ link _ | call _ target _ link _ _ =>
    if link = .continued then some target else none
  | _ => none

/-- The operand of which it matters what it refers to, besides its value. -/
def referencePosition? : Expr → Option Expr
  | call _ target .. => some target
  | template _ tag _ _ => tag
  | unary _ op value _ => if op = .delete ∨ op = .typeof then some value else none
  | _ => none

/-- What a program may hold: chains that go on somewhere, and assignments to places or patterns. -/
structure IsValid (e : Expr) : Prop where
  assigns : ∀ target ∈ e.assigned?, target.IsTarget
  continues : ∀ target ∈ e.continued?, target.isChainLink

end Expr

end EcmaPrune
