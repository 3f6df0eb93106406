import EcmaPrune.Analysis.PrimitiveType
import EcmaPrune.Analysis.Truthiness
import EcmaPrune.Text.Units

/-! Code that nobody can tell was run: expressions, classes and statements without effects. -/

namespace EcmaPrune

/-- What a test on the type of an identifier says, whichever side of the comparison it is on. -/
structure TypeofTest where
  op : Operator
  ref : Ref
  text : List UInt16
  /-- The text is on the left, so the comparison reads the other way round. -/
  isReversed : Bool

namespace Expr

/-- The identifier of a type test that was written on a bare identifier. -/
def typeofRef? : Expr → Option Ref
  | unary _ .typeof value true => value.identifierRef?
  | _ => none

/-- Reads a comparison of the type of an identifier with a string literal. -/
def typeofTest? : Expr → Option TypeofTest
  | binary _ op (string _ text) right =>
    right.typeofRef?.map fun ref => ⟨op, ref, text, true⟩
  | binary _ op left (string _ text) =>
    left.typeofRef?.map fun ref => ⟨op, ref, text, false⟩
  | _ => none

end Expr

/--
Whether a type test proves its identifier to exist on one of its branches.

Only the type `undefined` is in question. It is also the only type name sorting at or after `u`,
which makes a comparison of order with that letter a test for it.
-/
def TypeofTest.provesDefined (test : TypeofTest) (onYes : Bool) : Bool :=
  match test.op with
  | .strictEquality | .equality => (Text.spells test.text "undefined" == onYes) == false
  | .strictInequality | .inequality => (Text.spells test.text "undefined" == onYes) == true
  | .lessThan | .lessThanOrEqual => Text.spells test.text "u" && (onYes != test.isReversed) == true
  | .greaterThan | .greaterThanOrEqual =>
    Text.spells test.text "u" && (onYes != test.isReversed) == false
  | _ => false

/--
Whether an expression is an unbound identifier that a guard proves to exist on the given branch.

Reading it there cannot throw, as in `typeof x !== "undefined" ? x : null`.
-/
def Expr.isGuardedBy (value guard : Expr) (onYes : Bool) (unbound : Ref → Bool) : Bool :=
  match value.identifierRef?, guard.typeofTest? with
  | some ref, some test => unbound ref && test.ref == ref && test.provesDefined onYes
  | _, _ => false

mutual

/-- Whether evaluating an expression and discarding its value cannot be observed. -/
def Expr.isRemovable (unbound : Ref → Bool) : Expr → Bool
  | .inlinedEnum _ value _ => value.isRemovable unbound
  | .null _ | .undefined _ | .missing _ | .boolean .. | .number .. | .bigInt .. | .string ..
  | .this _ | .regExp .. | .function .. | .arrow .. | .importMeta _ => true
  -- Imported names are bound before the module runs.
  | .importIdentifier .. => true
  | .classExpr _ definition => definition.isRemovable unbound
  | .dot _ _ _ _ isRemovable => isRemovable
  | .index _ _ key _ isRemovable => isRemovable && key.isRemovable unbound
  | .identifier _ ref isRemovable mustKeepInWith =>
    !mustKeepInWith && (isRemovable || !unbound ref)
  | .conditional _ test yes no =>
    test.isRemovable unbound &&
      (yes.isRemovable unbound || yes.isGuardedBy test true unbound) &&
      (no.isRemovable unbound || no.isGuardedBy test false unbound)
  | .array _ items => Expr.allRemovable unbound items
  | .object _ properties => Property.allRemovable unbound properties
  -- The target of a pure call is not evaluated, only its arguments are.
  | .call _ _ args _ isPure kind =>
    (isPure || kind == .publicField) && Expr.allRemovable unbound args
  | .new _ _ args isPure => isPure && Expr.allRemovable unbound args
  | .template _ tag _ parts => tag.isNone && TemplatePart.allRemovable unbound parts
  | .unary _ op value fromIdentifier =>
    match op with
    -- Asking for the type of an identifier does not throw, even if nothing declares it.
    | .typeof => (fromIdentifier && value.isIdentifier) || value.isRemovable unbound
    | .void | .logicalNot => value.isRemovable unbound
    | _ => false
  | .binary _ op left right =>
    match op with
    | .strictEquality | .strictInequality | .comma | .nullishCoalescing =>
      left.isRemovable unbound && right.isRemovable unbound
    | .logicalOr =>
      left.isRemovable unbound &&
        (right.isRemovable unbound || right.isGuardedBy left false unbound)
    | .logicalAnd =>
      left.isRemovable unbound &&
        (right.isRemovable unbound || right.isGuardedBy left true unbound)
    -- A loose comparison converts nothing only where it might be strict.
    | .equality | .inequality =>
      left.strictMayBeLoose right && left.isRemovable unbound && right.isRemovable unbound
    | .lessThan | .greaterThan | .lessThanOrEqual | .greaterThanOrEqual =>
      (left.primitiveType == .string || left.primitiveType == .number ||
        left.primitiveType == .bigInt) &&
        right.primitiveType == left.primitiveType &&
        left.isRemovable unbound && right.isRemovable unbound
    | _ => false
  | .spread .. => false

/-- Whether all expressions of a list can be removed. -/
def Expr.allRemovable (unbound : Ref → Bool) : List Expr → Bool
  | [] => true
  | e :: rest => e.isRemovable unbound && Expr.allRemovable unbound rest

/-- Whether an expression that may be absent can be removed. -/
def Expr.optionRemovable (unbound : Ref → Bool) : Option Expr → Bool
  | none => true
  | some e => e.isRemovable unbound

/-- Whether all substitutions of a template can be removed, their conversions included. -/
def TemplatePart.allRemovable (unbound : Ref → Bool) : List TemplatePart → Bool
  | [] => true
  | ⟨value, _⟩ :: rest =>
    value.isRemovable unbound && value.primitiveType != .unknown &&
      TemplatePart.allRemovable unbound rest

/-- Whether all members of an object literal can be removed. -/
def Property.allRemovable (unbound : Ref → Bool) : List Property → Bool
  | [] => true
  | ⟨kind, isComputed, _, key, value, _⟩ :: rest =>
    -- Spreading reads properties, and a computed key is converted unless it is a literal.
    kind != .spread && (!isComputed || key.isPrimitiveLiteral) &&
      Expr.optionRemovable unbound value && Property.allRemovable unbound rest

/-- Whether all members of a class can be removed; what is not static runs only on construction. -/
def ClassMember.allRemovable (unbound : Ref → Bool) : List ClassMember → Bool
  | [] => true
  | .staticBlock body :: rest =>
    Stmt.allRemovable false unbound body && ClassMember.allRemovable unbound rest
  | .property ⟨_, isComputed, isStatic, key, value, initializer⟩ :: rest =>
    (!isComputed || key.isPrimitiveLiteral) &&
      (!isStatic ||
        (Expr.optionRemovable unbound value && Expr.optionRemovable unbound initializer)) &&
      ClassMember.allRemovable unbound rest

/-- Whether defining a class cannot be observed, its static members included. -/
def Class.isRemovable (unbound : Ref → Bool) : Class → Bool
  | ⟨_, superclass, members⟩ =>
    Expr.optionRemovable unbound superclass && ClassMember.allRemovable unbound members

/-- Whether all declared names are plain ones, as destructuring may run code of the program. -/
def BindingElement.allRemovable (unbound : Ref → Bool) : List BindingElement → Bool
  | [] => true
  | ⟨.identifier .., initializer⟩ :: rest =>
    Expr.optionRemovable unbound initializer && BindingElement.allRemovable unbound rest
  | _ => false

/-- Whether a statement can be dropped if nothing uses what it declares. -/
def Stmt.isRemovable (keepExportClauses : Bool) (unbound : Ref → Bool) : Stmt → Bool
  | .function .. | .empty _ | .importFrom .. | .exportFrom .. => true
  | .classDecl _ definition _ => definition.isRemovable unbound
  | .expr _ value isGlue => isGlue || value.isRemovable unbound
  | .localDecl _ _ decls _ => BindingElement.allRemovable unbound decls
  -- The handler runs only if the body throws, which is ruled out.
  | .tryCatch _ body _ finalizer =>
    Stmt.allRemovable false unbound body && Stmt.optionRemovable unbound finalizer
  | .exportClause .. => !keepExportClauses
  | .exportDefaultExpr _ _ value => value.isRemovable unbound
  | .exportDefaultFunction .. => true
  | .exportDefaultClass _ _ definition _ => definition.isRemovable unbound
  | _ => false

/-- Whether a statement list can be dropped if nothing uses what it declares. -/
def Stmt.allRemovable (keepExportClauses : Bool) (unbound : Ref → Bool) : List Stmt → Bool
  | [] => true
  | s :: rest =>
    s.isRemovable keepExportClauses unbound && Stmt.allRemovable keepExportClauses unbound rest

/-- Whether a statement list that may be absent can be dropped. -/
def Stmt.optionRemovable (unbound : Ref → Bool) : Option (List Stmt) → Bool
  | none => true
  | some body => Stmt.allRemovable false unbound body

end

/-- For each statement alone, whether it can be dropped if nothing uses what it declares. -/
def Stmt.removability (keepExportClauses : Bool) (unbound : Ref → Bool) (body : List Stmt) :
    List Bool :=
  body.map (Stmt.isRemovable keepExportClauses unbound)

end EcmaPrune
