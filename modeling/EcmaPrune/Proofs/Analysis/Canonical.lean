import EcmaPrune.Analysis.Constant
import EcmaPrune.Analysis.Removable
import EcmaPrune.Proofs.Tree.Canonical
import EcmaPrune.Rewrite.Condition

/-! What is known of an expression does not depend on positions or on the sign of a zero. -/

namespace EcmaPrune

namespace Expr

-- Canonical forms are read off one constructor at a time.
attribute [local simp] canonical

@[simp] theorem isIdentifier_canonical (e : Expr) : e.canonical.isIdentifier = e.isIdentifier := by
  cases e <;> rfl

@[simp] theorem identifierRef?_canonical (e : Expr) :
    e.canonical.identifierRef? = e.identifierRef? := by
  cases e <;> rfl

@[simp] theorem stringUnits?_canonical (e : Expr) : e.canonical.stringUnits? = e.stringUnits? := by
  cases e <;> rfl

@[simp] theorem isPrimitiveLiteralKind_canonical (e : Expr) :
    e.canonical.isPrimitiveLiteralKind = e.isPrimitiveLiteralKind := by
  cases e <;> rfl

@[simp] theorem isZeroLiteral_canonical (e : Expr) :
    e.canonical.isZeroLiteral = e.isZeroLiteral := by
  cases e with
  | number => exact Number.isZero_canonical _
  | _ => rfl

@[simp] theorem unwrapped_canonical : (e : Expr) → e.canonical.unwrapped = e.unwrapped.canonical
  | inlinedEnum _ value _ => value.unwrapped_canonical
  | array .. | arrow .. | bigInt .. | binary .. | boolean .. | call .. | classExpr .. | dot ..
  | function .. | identifier .. | conditional .. | importIdentifier .. | importMeta _ | index ..
  | missing _ | new .. | null _ | number .. | object .. | regExp .. | spread .. | string ..
  | template .. | this _ | unary .. | undefined _ => rfl

@[simp] theorem isPrimitiveLiteral_canonical (e : Expr) :
    e.canonical.isPrimitiveLiteral = e.isPrimitiveLiteral := by
  simp [isPrimitiveLiteral]

@[simp] theorem truth?_canonical : (e : Expr) → e.canonical.truth? = e.truth?
  | inlinedEnum _ value _ => value.truth?_canonical
  | unary _ _ value _ => by simp [truth?, value.truth?_canonical]
  | binary _ _ left right => by simp [truth?, right.truth?_canonical]
  | number .. => by simp [truth?]
  | array .. | arrow .. | bigInt .. | boolean .. | call .. | classExpr .. | dot ..
  | function .. | identifier .. | conditional .. | importIdentifier .. | importMeta _ | index ..
  | missing _ | new .. | null _ | object .. | regExp .. | spread .. | string ..
  | template .. | this _ | undefined _ => rfl

@[simp] theorem nullish?_canonical : (e : Expr) → e.canonical.nullish? = e.nullish?
  | inlinedEnum _ value _ => value.nullish?_canonical
  | binary _ _ left right => by simp [nullish?, right.nullish?_canonical]
  | unary .. | number ..
  | array .. | arrow .. | bigInt .. | boolean .. | call .. | classExpr .. | dot ..
  | function .. | identifier .. | conditional .. | importIdentifier .. | importMeta _ | index ..
  | missing _ | new .. | null _ | object .. | regExp .. | spread .. | string ..
  | template .. | this _ | undefined _ => rfl

@[simp] theorem primitiveType_canonical : (e : Expr) → e.canonical.primitiveType = e.primitiveType
  | inlinedEnum _ value _ => value.primitiveType_canonical
  | unary _ _ value _ => by simp [primitiveType, value.primitiveType_canonical]
  | binary _ _ left right => by
    simp [primitiveType, left.primitiveType_canonical, right.primitiveType_canonical]
  | conditional _ _ yes no => by
    simp [primitiveType, yes.primitiveType_canonical, no.primitiveType_canonical]
  | template _ tag _ _ => by cases tag <;> rfl
  | array .. | arrow .. | bigInt .. | boolean .. | call .. | classExpr .. | dot ..
  | function .. | identifier .. | importIdentifier .. | importMeta _ | index ..
  | missing _ | new .. | null _ | number .. | object .. | regExp .. | spread .. | string ..
  | this _ | undefined _ => rfl

@[simp] theorem strictMayBeLoose_canonical (left right : Expr) :
    left.canonical.strictMayBeLoose right.canonical = left.strictMayBeLoose right := by
  simp [strictMayBeLoose]

@[simp] theorem producesPrimitive_canonical : (e : Expr) →
    e.canonical.producesPrimitive = e.producesPrimitive
  | inlinedEnum _ value _ => value.producesPrimitive_canonical
  | binary _ _ left right => by
    simp [producesPrimitive, left.producesPrimitive_canonical,
      right.producesPrimitive_canonical]
  | conditional _ _ yes no => by
    simp [producesPrimitive, yes.producesPrimitive_canonical, no.producesPrimitive_canonical]
  | template _ tag _ _ => by cases tag <;> rfl
  | array .. | arrow .. | bigInt .. | boolean .. | call .. | classExpr .. | dot ..
  | function .. | identifier .. | importIdentifier .. | importMeta _ | index ..
  | missing _ | new .. | null _ | number .. | object .. | regExp .. | spread .. | string ..
  | this _ | unary .. | undefined _ => rfl

@[simp] theorem isInt32_canonical : (e : Expr) → e.canonical.isInt32 = e.isInt32
  | binary _ _ left right => by
    simp [isInt32, left.isInt32_canonical, right.isInt32_canonical]
  | conditional _ _ yes no => by simp [isInt32, yes.isInt32_canonical, no.isInt32_canonical]
  | array .. | arrow .. | bigInt .. | boolean .. | call .. | classExpr .. | dot ..
  | function .. | identifier .. | importIdentifier .. | importMeta _ | index .. | inlinedEnum ..
  | missing _ | new .. | null _ | number .. | object .. | regExp .. | spread .. | string ..
  | template .. | this _ | unary .. | undefined _ => rfl

@[simp] theorem asksForZero_canonical (op : Operator) (left right : Expr) :
    asksForZero op left.canonical right.canonical = asksForZero op left right := by
  simp [asksForZero]

@[simp] theorem pureTruth?_canonical (e : Expr) : e.canonical.pureTruth? = e.pureTruth? := by
  simp [pureTruth?]

@[simp] theorem literalEq?_canonical (left right : Expr) :
    literalEq? left.canonical right.canonical = literalEq? left right := by
  cases left with
  | number loc value =>
    cases right with
    | number loc' value' => exact congrArg some (Number.numericEq_canonical value value')
    | _ => rfl
  -- Only literals are compared.
  | null | undefined | boolean | bigInt | string => cases right <;> rfl
  | _ => rfl

@[simp] theorem constantEq?_canonical (left right : Expr) :
    left.canonical.constantEq? right.canonical = left.constantEq? right := by
  simp [constantEq?]

@[simp] theorem typeofRef?_canonical (e : Expr) : e.canonical.typeofRef? = e.typeofRef? := by
  cases e with
  | unary loc op value fromIdentifier =>
    cases op with
    | typeof => cases fromIdentifier <;> simp [typeofRef?]
    | _ => rfl
  | _ => rfl

/-- A type test reads a text on one side and a type on the other. -/
theorem typeofTest?_binary (loc : Loc) (op : Operator) (left right : Expr) :
    (binary loc op left right).typeofTest? =
      match left.stringUnits? with
      | some text => right.typeofRef?.map fun ref => ⟨op, ref, text, true⟩
      | none => right.stringUnits?.bind fun text =>
        left.typeofRef?.map fun ref => ⟨op, ref, text, false⟩ := by
  cases left with
  | string => rfl
  | _ =>
    cases right with
    | string => rfl
    | _ => rfl

@[simp] theorem typeofTest?_canonical (e : Expr) : e.canonical.typeofTest? = e.typeofTest? := by
  cases e with
  | binary loc op left right => simp [typeofTest?_binary]
  | _ => rfl

@[simp] theorem isGuardedBy_canonical (value guard : Expr) (onYes : Bool) (unbound : Ref → Bool) :
    value.canonical.isGuardedBy guard.canonical onYes unbound =
      value.isGuardedBy guard onYes unbound := by
  simp [isGuardedBy]

end Expr

-- Canonical forms are read off one constructor at a time.
attribute [local simp] Expr.canonical Expr.canonicalList Expr.canonicalOption
  TemplatePart.canonical TemplatePart.canonicalList Property.canonical Property.canonicalList
  Class.canonical ClassMember.canonical ClassMember.canonicalList Binding.canonical
  BindingElement.canonical BindingElement.canonicalList Stmt.canonical Stmt.canonicalList
  Stmt.canonicalListOption

-- So are the verdicts.
attribute [local simp] Expr.isRemovable Expr.allRemovable Expr.optionRemovable
  TemplatePart.allRemovable Property.allRemovable ClassMember.allRemovable Class.isRemovable
  BindingElement.allRemovable Stmt.isRemovable Stmt.allRemovable Stmt.optionRemovable

variable (unbound : Ref → Bool)

mutual

/-- Whether an expression can be removed does not depend on positions. -/
theorem Expr.isRemovable_canonical : (e : Expr) →
    e.canonical.isRemovable unbound = e.isRemovable unbound
  | .inlinedEnum _ value _ => by simp [value.isRemovable_canonical]
  | .classExpr _ definition => by simp [definition.isRemovable_canonical]
  | .index _ _ key _ _ => by simp [key.isRemovable_canonical]
  | .conditional _ test yes no => by
    simp [test.isRemovable_canonical, yes.isRemovable_canonical, no.isRemovable_canonical]
  | .array _ items => by simp [Expr.allRemovable_canonicalList items]
  | .object _ properties => by simp [Property.allRemovable_canonicalList properties]
  | .call _ _ args _ _ _ => by simp [Expr.allRemovable_canonicalList args]
  | .new _ _ args _ => by simp [Expr.allRemovable_canonicalList args]
  | .template _ none _ parts => by simp [TemplatePart.allRemovable_canonicalList parts]
  | .template _ (some _) _ _ => rfl
  | .unary _ _ value _ => by simp [value.isRemovable_canonical]
  | .binary _ _ left right => by
    simp [left.isRemovable_canonical, right.isRemovable_canonical]
  | .arrow .. | .bigInt .. | .boolean .. | .dot .. | .function .. | .identifier ..
  | .importIdentifier .. | .importMeta _ | .missing _ | .null _ | .number .. | .regExp ..
  | .spread .. | .string .. | .this _ | .undefined _ => rfl

theorem Expr.allRemovable_canonicalList : (items : List Expr) →
    Expr.allRemovable unbound (Expr.canonicalList items) = Expr.allRemovable unbound items
  | [] => rfl
  | e :: rest => by simp [e.isRemovable_canonical, Expr.allRemovable_canonicalList rest]

theorem Expr.optionRemovable_canonicalOption : (e : Option Expr) →
    Expr.optionRemovable unbound (Expr.canonicalOption e) = Expr.optionRemovable unbound e
  | none => rfl
  | some e => by simp [e.isRemovable_canonical]

theorem TemplatePart.allRemovable_canonicalList : (parts : List TemplatePart) →
    TemplatePart.allRemovable unbound (TemplatePart.canonicalList parts) =
      TemplatePart.allRemovable unbound parts
  | [] => rfl
  | ⟨value, _⟩ :: rest => by
    simp [value.isRemovable_canonical, TemplatePart.allRemovable_canonicalList rest]

theorem Property.allRemovable_canonicalList : (properties : List Property) →
    Property.allRemovable unbound (Property.canonicalList properties) =
      Property.allRemovable unbound properties
  | [] => rfl
  | ⟨_, _, _, _, value, _⟩ :: rest => by
    simp [Expr.optionRemovable_canonicalOption value, Property.allRemovable_canonicalList rest]

theorem ClassMember.allRemovable_canonicalList : (members : List ClassMember) →
    ClassMember.allRemovable unbound (ClassMember.canonicalList members) =
      ClassMember.allRemovable unbound members
  | [] => rfl
  | .staticBlock body :: rest => by
    simp [Stmt.allRemovable_canonicalList false body, ClassMember.allRemovable_canonicalList rest]
  | .property ⟨_, _, _, _, value, initializer⟩ :: rest => by
    simp [Expr.optionRemovable_canonicalOption value,
      Expr.optionRemovable_canonicalOption initializer,
      ClassMember.allRemovable_canonicalList rest]

theorem Class.isRemovable_canonical : (c : Class) →
    c.canonical.isRemovable unbound = c.isRemovable unbound
  | ⟨_, superclass, members⟩ => by
    simp [Expr.optionRemovable_canonicalOption superclass,
      ClassMember.allRemovable_canonicalList members]

theorem BindingElement.allRemovable_canonicalList : (elements : List BindingElement) →
    BindingElement.allRemovable unbound (BindingElement.canonicalList elements) =
      BindingElement.allRemovable unbound elements
  | [] => rfl
  | ⟨.identifier .., initializer⟩ :: rest => by
    simp [Expr.optionRemovable_canonicalOption initializer,
      BindingElement.allRemovable_canonicalList rest]
  | ⟨.array .., _⟩ :: _ | ⟨.missing _, _⟩ :: _ | ⟨.object .., _⟩ :: _ => rfl

theorem Stmt.isRemovable_canonical (keepExportClauses : Bool) : (s : Stmt) →
    s.canonical.isRemovable keepExportClauses unbound = s.isRemovable keepExportClauses unbound
  | .classDecl _ definition _ => by simp [definition.isRemovable_canonical]
  | .expr _ value _ => by simp [value.isRemovable_canonical]
  | .localDecl _ _ decls _ => by simp [BindingElement.allRemovable_canonicalList decls]
  | .tryCatch _ body _ finalizer => by
    simp [Stmt.allRemovable_canonicalList false body,
      Stmt.optionRemovable_canonicalListOption finalizer]
  | .exportDefaultExpr _ _ value => by simp [value.isRemovable_canonical]
  | .exportDefaultClass _ _ definition _ => by simp [definition.isRemovable_canonical]
  | .block .. | .breakTo .. | .continueTo .. | .debugger _ | .doWhile .. | .empty _
  | .exportClause .. | .exportDefaultFunction .. | .exportFrom .. | .function .. | .ifElse ..
  | .importFrom .. | .label .. | .returnValue .. | .throwValue .. | .whileLoop ..
  | .withObject .. => rfl

theorem Stmt.allRemovable_canonicalList (keepExportClauses : Bool) : (body : List Stmt) →
    Stmt.allRemovable keepExportClauses unbound (Stmt.canonicalList body) =
      Stmt.allRemovable keepExportClauses unbound body
  | [] => rfl
  | s :: rest => by
    simp [s.isRemovable_canonical keepExportClauses,
      Stmt.allRemovable_canonicalList keepExportClauses rest]

theorem Stmt.optionRemovable_canonicalListOption : (body : Option (List Stmt)) →
    Stmt.optionRemovable unbound (Stmt.canonicalListOption body) =
      Stmt.optionRemovable unbound body
  | none => rfl
  | some body => by simp [Stmt.allRemovable_canonicalList false body]

end

end EcmaPrune
