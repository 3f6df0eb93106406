import EcmaPrune.Minify.Walk
import EcmaPrune.Rewrite.Condition

/-! Rewrites of single expressions that keep their value. -/

namespace EcmaPrune

/-- The loose form of a strict comparison. -/
def Operator.loosened : Operator → Operator
  | .strictEquality => .equality
  | .strictInequality => .inequality
  | op => op

/-- A strict comparison: decided if both sides are known, or loose if that is the same. -/
def mangleStrict (looseAllowed : Bool) (loc : Loc) (op : Operator) (left right : Expr) :
    Counted Expr :=
  match left.constantEq? right with
  | some equal => .rewritten (.boolean loc (equal == (op == .strictEquality)))
  | none =>
    if looseAllowed && left.strictMayBeLoose right then
      .rewritten (.binary loc op.loosened left right)
    else .unchanged (.binary loc op left right)

/-- A choice between a value and its replacement if it is nullish, made if it is known. -/
def mangleNullish (loc : Loc) (left right : Expr) : Counted Expr :=
  match left.nullish? with
  | some ⟨false, _⟩ => .rewritten left
  | some ⟨true, false⟩ => .rewritten right
  | _ => .unchanged (.binary loc .nullishCoalescing left right)

/-- Rewrites one expression whose parts have been rewritten. -/
def mangleExpr (looseAllowed : Bool) : Expr → Counted Expr
  | .binary loc op left right =>
    if op == .strictEquality || op == .strictInequality then
      mangleStrict looseAllowed loc op left right
    else if op == .nullishCoalescing then mangleNullish loc left right
    else .unchanged (.binary loc op left right)
  | .unary loc op value fromIdentifier =>
    if op == .logicalNot then
      match value.negate? with
      | some negated => .rewritten negated
      | none => .unchanged (.unary loc op value fromIdentifier)
    else .unchanged (.unary loc op value fromIdentifier)
  | e => .unchanged e

/-- Rewrites every expression of a program, inner ones first. -/
def mangleProgram (looseAllowed : Bool) (program : List Stmt) : Counted (List Stmt) :=
  Stmt.walkList { Walk.idle with leave := mangleExpr looseAllowed } program

end EcmaPrune
