import EcmaPrune.Tree.Visit

/-! The number of expressions in a tree, the measure under which rewriting comes to an end. -/

namespace EcmaPrune

/-- Whether a walk enters an expression here. -/
def Visit.isEnter : Visit → Bool
  | .enter _ => true
  | _ => false

/-- The number of expressions that a walk enters. -/
def enterCount (walk : List Visit) : Nat := walk.countP Visit.isEnter

@[simp] theorem enterCount_nil : enterCount [] = 0 := rfl

@[simp] theorem enterCount_append (first second : List Visit) :
    enterCount (first ++ second) = enterCount first + enterCount second :=
  List.countP_append

@[simp] theorem enterCount_cons (visit : Visit) (walk : List Visit) :
    enterCount (visit :: walk) = enterCount walk + if visit.isEnter then 1 else 0 :=
  List.countP_cons

/-- The number of expressions in an expression, itself and those inside functions included. -/
def Expr.nodeCount (e : Expr) : Nat := enterCount e.visits

/-- The number of expressions in the expressions of a list. -/
def Expr.nodeCountList (items : List Expr) : Nat := enterCount (Expr.visitsList items)

/-- The number of expressions in the substitutions of a template. -/
def TemplatePart.nodeCountList (parts : List TemplatePart) : Nat :=
  enterCount (TemplatePart.visitsList parts)

/-- The number of expressions in the members of an object literal. -/
def Property.nodeCountList (properties : List Property) : Nat :=
  enterCount (Property.visitsList properties)

/-- The number of expressions in the statements of a list. -/
def Stmt.nodeCountList (body : List Stmt) : Nat := enterCount (Stmt.visitsList body)

-- A count is found by walking through one constructor at a time.
attribute [local simp] Visit.isEnter Expr.visits Expr.visitsList Expr.visitsOption
  TemplatePart.visitsList Property.visits Property.visitsList BindingElement.visitsList
  Stmt.visits Stmt.visitsList

namespace Expr

/-- Every expression counts itself. -/
theorem nodeCount_pos (e : Expr) : 0 < e.nodeCount := by
  -- Whatever the constructor, the walk begins by entering the expression.
  cases e <;> simp [nodeCount]

@[simp] theorem nodeCount_boolean (loc : Loc) (value : Bool) :
    (boolean loc value).nodeCount = 1 := by
  simp [nodeCount]

@[simp] theorem nodeCount_unary (loc : Loc) (op : Operator) (value : Expr)
    (fromIdentifier : Bool) :
    (unary loc op value fromIdentifier).nodeCount = value.nodeCount + 1 := by
  simp [nodeCount]

@[simp] theorem nodeCount_binary (loc : Loc) (op : Operator) (left right : Expr) :
    (binary loc op left right).nodeCount = left.nodeCount + right.nodeCount + 1 := by
  simp [nodeCount]

@[simp] theorem nodeCount_conditional (loc : Loc) (test yes no : Expr) :
    (conditional loc test yes no).nodeCount =
      test.nodeCount + yes.nodeCount + no.nodeCount + 1 := by
  simp [nodeCount]
  omega

@[simp] theorem nodeCount_inlinedEnum (loc : Loc) (value : Expr) (comment : String) :
    (inlinedEnum loc value comment).nodeCount = value.nodeCount + 1 := by
  simp [nodeCount]

@[simp] theorem nodeCount_array (loc : Loc) (items : List Expr) :
    (array loc items).nodeCount = nodeCountList items + 1 := by
  simp [nodeCount, nodeCountList]

@[simp] theorem nodeCount_call (loc : Loc) (target : Expr) (args : List Expr) (link : ChainLink)
    (isPure : Bool) (kind : CallKind) :
    (call loc target args link isPure kind).nodeCount =
      target.nodeCount + nodeCountList args + 1 := by
  simp [nodeCount, nodeCountList]

@[simp] theorem nodeCount_new (loc : Loc) (target : Expr) (args : List Expr) (isPure : Bool) :
    (new loc target args isPure).nodeCount = target.nodeCount + nodeCountList args + 1 := by
  simp [nodeCount, nodeCountList]

@[simp] theorem nodeCount_object (loc : Loc) (properties : List Property) :
    (object loc properties).nodeCount = Property.nodeCountList properties + 1 := by
  simp [nodeCount, Property.nodeCountList]

@[simp] theorem nodeCount_template_untagged (loc : Loc) (head : List UInt16)
    (parts : List TemplatePart) :
    (template loc none head parts).nodeCount = TemplatePart.nodeCountList parts + 1 := by
  simp [nodeCount, TemplatePart.nodeCountList]

@[simp] theorem nodeCount_arrow_plain (loc : Loc) (body : List Stmt) (isAsync prefersExpr : Bool) :
    (arrow loc [] body isAsync prefersExpr).nodeCount = Stmt.nodeCountList body + 1 := by
  simp [nodeCount, Stmt.nodeCountList]

/-- An expression of a list is counted among the expressions of the list. -/
theorem nodeCount_le_of_mem {e : Expr} {items : List Expr} (member : e ∈ items) :
    e.nodeCount ≤ nodeCountList items := by
  induction items with
  | nil => simp at member
  | cons first rest ih =>
    -- The count of a list adds up its items, so it is at least that of the one in question.
    simp only [nodeCountList, visitsList, enterCount_append]
    rcases List.mem_cons.mp member with same | member
    · subst same; exact Nat.le_add_right _ _
    · exact Nat.le_trans (ih member) (Nat.le_add_left _ _)

end Expr

/-- The value of a substitution is counted among the expressions of the template. -/
theorem TemplatePart.nodeCount_le_of_mem {part : TemplatePart} {parts : List TemplatePart}
    (member : part ∈ parts) : part.value.nodeCount ≤ TemplatePart.nodeCountList parts := by
  induction parts with
  | nil => simp at member
  | cons first rest ih =>
    rcases first with ⟨value, tail⟩
    simp only [TemplatePart.nodeCountList, TemplatePart.visitsList, enterCount_append]
    rcases List.mem_cons.mp member with same | member
    · subst same; exact Nat.le_add_right _ _
    · exact Nat.le_trans (ih member) (Nat.le_add_left _ _)

/-- The expressions of a member are counted among those of an object literal. -/
theorem Property.nodeCount_le_of_mem {p : Property} {properties : List Property}
    (member : p ∈ properties) : enterCount p.visits ≤ Property.nodeCountList properties := by
  induction properties with
  | nil => simp at member
  | cons first rest ih =>
    simp only [Property.nodeCountList, Property.visitsList, enterCount_append]
    rcases List.mem_cons.mp member with same | member
    · subst same; exact Nat.le_add_right _ _
    · exact Nat.le_trans (ih member) (Nat.le_add_left _ _)

/-- The key of a member is counted among the expressions of an object literal. -/
theorem Property.nodeCount_key_le_of_mem {p : Property} {properties : List Property}
    (member : p ∈ properties) : p.key.nodeCount ≤ Property.nodeCountList properties := by
  -- The key is one of the parts of which the member's own count is the sum.
  have counted := Property.nodeCount_le_of_mem member
  rcases p with ⟨kind, isComputed, isStatic, key, value, initializer⟩
  simp at counted
  simp only [Expr.nodeCount]
  omega

/-- The value of a member is counted among the expressions of an object literal. -/
theorem Property.nodeCount_value_le_of_mem {p : Property} {value : Expr}
    {properties : List Property} (member : p ∈ properties) (held : p.value = some value) :
    value.nodeCount ≤ Property.nodeCountList properties := by
  -- The value is one of the parts of which the member's own count is the sum.
  have counted := Property.nodeCount_le_of_mem member
  rcases p with ⟨kind, isComputed, isStatic, key, stored, initializer⟩
  simp only at held
  subst held
  simp at counted
  simp only [Expr.nodeCount]
  omega

@[simp] theorem Stmt.nodeCountList_expr (loc : Loc) (value : Expr) (isGlue : Bool) :
    Stmt.nodeCountList [.expr loc value isGlue] = value.nodeCount := by
  simp [Stmt.nodeCountList, Expr.nodeCount]

@[simp] theorem Stmt.nodeCountList_return (loc : Loc) (value : Expr) :
    Stmt.nodeCountList [.returnValue loc (some value)] = value.nodeCount := by
  simp [Stmt.nodeCountList, Expr.nodeCount]

end EcmaPrune
