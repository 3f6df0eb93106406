import EcmaPrune.Tree

/-! Where the grammar asks for parentheses. -/

namespace EcmaPrune

/-- The strength of member accesses and calls. -/
def memberPrecedence : Nat := 18

/-- The strength of expressions that stand alone. -/
def primaryPrecedence : Nat := 19

/-- The strength of arrow functions, below that of assignments. -/
def arrowPrecedence : Nat := 2

/-- The strength of whatever may be one item of a list. -/
def itemPrecedence : Nat := 3

namespace Operator

/-- The least strength of a left operand that needs no parentheses. -/
def leftPrecedence (op : Operator) : Nat :=
  match op.associativity with
  | .left => op.precedence
  | .right => op.precedence + 1

/-- The least strength of a right operand that needs no parentheses. -/
def rightPrecedence (op : Operator) : Nat :=
  match op.associativity with
  | .left => op.precedence + 1
  | .right => op.precedence

end Operator

/-- A number that prints with a minus sign. -/
def Number.printsMinus (x : Number) : Bool := x.isBelowZero || x.isNegativeZero

namespace Expr

/-- How strongly the outermost operator of an expression binds. -/
def precedence : Expr → Nat
  | binary _ op _ _ => op.precedence
  | conditional .. => Operator.conditional.precedence
  | unary _ op _ _ => op.precedence
  | call .. | dot .. | index .. | new .. => memberPrecedence
  | template _ tag _ _ => if tag.isSome then memberPrecedence else primaryPrecedence
  | arrow .. => arrowPrecedence
  | number _ value =>
    if value.printsMinus then Operator.unaryNegation.precedence else primaryPrecedence
  | undefined _ => Operator.void.precedence
  | inlinedEnum _ value _ => value.precedence
  | spread .. => itemPrecedence
  | array .. | bigInt .. | boolean .. | classExpr .. | function .. | identifier ..
  | importIdentifier .. | importMeta _ | missing _ | null _ | object .. | regExp .. | string ..
  | this _ => primaryPrecedence

/-- Whether an operand mixes `??` with the other logical operators below the given operator. -/
def mixesNullish (parent : Operator) : Expr → Bool
  | binary _ op _ _ =>
    (parent == .nullishCoalescing && op.isAndOr) || (parent.isAndOr && op == .nullishCoalescing)
  | _ => false

/-- Whether an expression prints as a unary operation, which may not be the base of `**`. -/
def isUnaryLike : Expr → Bool
  | unary _ op _ _ => op.isPrefixed
  | undefined _ => true
  | number _ value => value.printsMinus
  | _ => false

/-- The expression inside another one whose text comes first. -/
def leftmost : Expr → Expr
  | binary _ _ left _ => left.leftmost
  | conditional _ test _ _ => test.leftmost
  | call _ target _ _ _ _ => target.leftmost
  | dot _ target _ _ _ => target.leftmost
  | index _ target _ _ _ => target.leftmost
  | template _ (some tag) _ _ => tag.leftmost
  | unary loc op value fromIdentifier =>
    if op.isPrefixed then unary loc op value fromIdentifier else value.leftmost
  | inlinedEnum _ value _ => value.leftmost
  | e => e

/-- Whether a statement of this expression would read as a block or declaration. -/
def stmtNeedsParens (e : Expr) : Bool :=
  match e.leftmost with
  | object .. | function .. | classExpr .. => true
  | _ => false

/-- Whether the body of an arrow function made of this expression would read as a block. -/
def arrowBodyNeedsParens (e : Expr) : Bool :=
  match e.leftmost with
  | object .. => true
  | _ => false

/-- Whether `new` would take too little of its target: up to a call or into a chain. -/
def newTargetNeedsParens : Expr → Bool
  | call .. => true
  | dot _ target _ link _ => link != .plain || target.newTargetNeedsParens
  | index _ target _ link _ => link != .plain || target.newTargetNeedsParens
  | template _ (some tag) _ _ => tag.newTargetNeedsParens
  | _ => false

end Expr

end EcmaPrune
