import EcmaPrune.Minify.Mangle
import EcmaPrune.Proofs.Tree.Operands

/-! An expression after everything in it has been rewritten, read off one constructor at a time. -/

namespace EcmaPrune

namespace Counted

variable {α β : Type}

@[simp] theorem value_pure (value : α) : (pure value : Counted α).value = value := rfl

@[simp] theorem value_unchanged (value : α) : (unchanged value).value = value := rfl

@[simp] theorem value_rewritten (value : α) : (rewritten value).value = value := rfl

@[simp] theorem value_bind (first : Counted α) (next : α → Counted β) :
    (first >>= next).value = (next first.value).value := rfl

end Counted

/-- The walk that rewrites every expression after everything inside it. -/
def Walk.mangling (looseAllowed : Bool) : Walk :=
  { Walk.idle with leave := mangleExpr looseAllowed }

@[simp] theorem Walk.mangling_body (looseAllowed : Bool) :
    (Walk.mangling looseAllowed).body = none := rfl

@[simp] theorem Walk.mangling_test (looseAllowed : Bool) :
    (Walk.mangling looseAllowed).test = none := rfl

@[simp] theorem Walk.mangling_leave (looseAllowed : Bool) :
    (Walk.mangling looseAllowed).leave = mangleExpr looseAllowed := rfl

/-- An expression after it and everything in it has been rewritten. -/
def Expr.mangled (looseAllowed : Bool) (e : Expr) : Expr :=
  (e.walk (Walk.mangling looseAllowed)).value

section

variable {looseAllowed : Bool}

-- The equations of the walk are worked out once, for all the proofs below.
attribute [local simp] Expr.walk Expr.walkList Expr.walkOption TemplatePart.walkList Property.walk
  Property.walkList ClassMember.walk ClassMember.walkList Class.walk

theorem Expr.value_walkList (items : List Expr) :
    (Expr.walkList (Walk.mangling looseAllowed) items).value =
      items.map (Expr.mangled looseAllowed) := by
  induction items with
  | nil => simp
  | cons item rest ih => simp [ih, Expr.mangled]

theorem Expr.value_walkOption (e : Option Expr) :
    (Expr.walkOption (Walk.mangling looseAllowed) e).value =
      e.map (Expr.mangled looseAllowed) := by
  cases e <;> simp [Expr.mangled]

theorem TemplatePart.value_walkList (parts : List TemplatePart) :
    (TemplatePart.walkList (Walk.mangling looseAllowed) parts).value =
      parts.map (TemplatePart.mapExpr (Expr.mangled looseAllowed)) := by
  induction parts with
  | nil => simp
  | cons part rest ih =>
    rcases part with ⟨value, tail⟩
    simp [ih, TemplatePart.mapExpr, Expr.mangled]

theorem Property.value_walk (p : Property) :
    (p.walk (Walk.mangling looseAllowed)).value = p.mapExprs (Expr.mangled looseAllowed) := by
  rcases p with ⟨kind, isComputed, isStatic, key, value, initializer⟩
  simp [Property.mapExprs, Expr.mangled, Expr.value_walkOption]

theorem Property.value_walkList (properties : List Property) :
    (Property.walkList (Walk.mangling looseAllowed) properties).value =
      properties.map (Property.mapExprs (Expr.mangled looseAllowed)) := by
  induction properties with
  | nil => simp
  | cons p rest ih => simp [ih, Property.value_walk]

theorem Class.value_walk (c : Class) :
    (c.walk (Walk.mangling looseAllowed)).value =
      c.mapExprs (Expr.mangled looseAllowed)
        (fun body => (Stmt.walkList (Walk.mangling looseAllowed) body).value) := by
  rcases c with ⟨name, superclass, members⟩
  simp only [walk, mapExprs, Counted.value_bind, Counted.value_pure, Expr.value_walkOption]
  congr 1
  induction members with
  | nil => simp
  | cons m rest ih =>
    cases m with
    | property p => simp [ih, ClassMember.mapExprs, Property.value_walk]
    | staticBlock body => simp [ih, ClassMember.mapExprs]

namespace Expr

variable (loc : Loc)

-- An expression is rewritten by itself when everything in it has been.
attribute [local simp] mangled mangleExpr

@[simp] theorem mangled_array (items : List Expr) :
    (array loc items).mangled looseAllowed = array loc (items.map (mangled looseAllowed)) := by
  rw [← value_walkList]
  simp

@[simp] theorem mangled_object (properties : List Property) :
    (object loc properties).mangled looseAllowed =
      object loc (properties.map (Property.mapExprs (Expr.mangled looseAllowed))) := by
  rw [← Property.value_walkList]
  simp

@[simp] theorem mangled_template (tag : Option Expr) (head : List UInt16)
    (parts : List TemplatePart) :
    (template loc tag head parts).mangled looseAllowed =
      template loc (tag.map (mangled looseAllowed)) head
        (parts.map (TemplatePart.mapExpr (Expr.mangled looseAllowed))) := by
  rw [← TemplatePart.value_walkList, ← value_walkOption]
  simp

@[simp] theorem mangled_call (target : Expr) (args : List Expr) (link : ChainLink) (isPure : Bool)
    (kind : CallKind) :
    (call loc target args link isPure kind).mangled looseAllowed =
      call loc (target.mangled looseAllowed) (args.map (mangled looseAllowed)) link isPure
        kind := by
  rw [← value_walkList]
  simp

@[simp] theorem mangled_new (target : Expr) (args : List Expr) (isPure : Bool) :
    (new loc target args isPure).mangled looseAllowed =
      new loc (target.mangled looseAllowed) (args.map (mangled looseAllowed)) isPure := by
  rw [← value_walkList]
  simp

@[simp] theorem mangled_dot (target : Expr) (name : String) (link : ChainLink)
    (isRemovable : Bool) :
    (dot loc target name link isRemovable).mangled looseAllowed =
      dot loc (target.mangled looseAllowed) name link isRemovable := by
  simp

@[simp] theorem mangled_index (target key : Expr) (link : ChainLink) (isRemovable : Bool) :
    (index loc target key link isRemovable).mangled looseAllowed =
      index loc (target.mangled looseAllowed) (key.mangled looseAllowed) link isRemovable := by
  simp

@[simp] theorem mangled_conditional (test yes no : Expr) :
    (conditional loc test yes no).mangled looseAllowed =
      conditional loc (test.mangled looseAllowed) (yes.mangled looseAllowed)
        (no.mangled looseAllowed) := by
  simp

@[simp] theorem mangled_inlinedEnum (value : Expr) (comment : String) :
    (inlinedEnum loc value comment).mangled looseAllowed =
      inlinedEnum loc (value.mangled looseAllowed) comment := by
  simp

@[simp] theorem mangled_spread (value : Expr) :
    (spread loc value).mangled looseAllowed = spread loc (value.mangled looseAllowed) := by
  simp

@[simp] theorem mangled_classExpr (definition : Class) :
    (classExpr loc definition).mangled looseAllowed =
      classExpr loc (definition.mapExprs (mangled looseAllowed)
        (fun body => (Stmt.walkList (Walk.mangling looseAllowed) body).value)) := by
  rw [← Class.value_walk]
  simp

/-- A function stays one, whatever is rewritten in it. -/
theorem mangled_function (looseAllowed : Bool) (func : Func) :
    ∃ rewritten, (function loc func).mangled looseAllowed = function loc rewritten := by
  simp

theorem mangled_arrow (looseAllowed : Bool) (params : List BindingElement) (body : List Stmt)
    (isAsync prefersExpr : Bool) :
    ∃ rewrittenParams rewrittenBody,
      (arrow loc params body isAsync prefersExpr).mangled looseAllowed =
        arrow loc rewrittenParams rewrittenBody isAsync prefersExpr := by
  simp

/-- What has nothing in it stays as it is. -/
@[simp] theorem mangled_of_isLeaf {e : Expr} (leaf : e.isLeaf) : e.mangled looseAllowed = e := by
  cases e <;> simp_all [isLeaf]

/-- A negation is folded, if there is a shorter form of it. -/
theorem mangled_not (value : Expr) (fromIdentifier : Bool) :
    (unary loc .logicalNot value fromIdentifier).mangled looseAllowed =
      (value.mangled looseAllowed).negate?.getD
        (unary loc .logicalNot (value.mangled looseAllowed) fromIdentifier) := by
  simp only [mangled, walk, Walk.mangling_leave, mangleExpr, Counted.value_bind]
  cases negate? _ <;> rfl

/-- Any other unary operation stays. -/
theorem mangled_unary {op : Operator} (other : op ≠ .logicalNot) (value : Expr)
    (fromIdentifier : Bool) :
    (unary loc op value fromIdentifier).mangled looseAllowed =
      unary loc op (value.mangled looseAllowed) fromIdentifier := by
  simp [other]

theorem mangled_strict {op : Operator} (strict : op = .strictEquality ∨ op = .strictInequality)
    (left right : Expr) :
    (binary loc op left right).mangled looseAllowed =
      (mangleStrict looseAllowed loc op (left.mangled looseAllowed)
        (right.mangled looseAllowed)).value := by
  rcases strict with rfl | rfl <;> simp

theorem mangled_coalesce (left right : Expr) :
    (binary loc .nullishCoalescing left right).mangled looseAllowed =
      (mangleNullish loc (left.mangled looseAllowed) (right.mangled looseAllowed)).value := by
  simp

/-- Any other binary operation stays. -/
theorem mangled_binary {op : Operator} (notEqual : op ≠ .strictEquality)
    (notUnequal : op ≠ .strictInequality) (notCoalescing : op ≠ .nullishCoalescing)
    (left right : Expr) :
    (binary loc op left right).mangled looseAllowed =
      binary loc op (left.mangled looseAllowed) (right.mangled looseAllowed) := by
  simp [notEqual, notUnequal, notCoalescing]

end Expr

/-- In a program every expression is rewritten so, for instance one that is a statement. -/
theorem value_mangleProgram_expr (looseAllowed : Bool) (loc : Loc) (e : Expr) (isGlue : Bool) :
    (mangleProgram looseAllowed [.expr loc e isGlue]).value =
      [.expr loc (e.mangled looseAllowed) isGlue] := by
  simp [mangleProgram, Stmt.walkList, Stmt.walk, Expr.mangled, Walk.mangling]

end

end EcmaPrune
