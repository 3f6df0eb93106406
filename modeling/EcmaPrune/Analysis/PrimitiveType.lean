import EcmaPrune.Tree

/-! The primitive types that expressions are known to produce. -/

namespace EcmaPrune

/-- What is known of the type of a value. -/
inductive PrimitiveType where
  /-- It may be an object, so converting it may run code of the program. -/
  | unknown
  /-- It is a primitive of a type that is not known. -/
  | mixed
  | null
  | undefined
  | boolean
  | number
  | string
  | bigInt
deriving DecidableEq, Inhabited, Repr

namespace PrimitiveType

/-- Every verdict once. -/
def all : List PrimitiveType := [unknown, mixed, null, undefined, boolean, number, string, bigInt]

/-- The name of a verdict. -/
def name : PrimitiveType → String
  | unknown => "Unknown"
  | mixed => "Mixed"
  | null => "Null"
  | undefined => "Undefined"
  | boolean => "Boolean"
  | number => "Number"
  | string => "String"
  | bigInt => "BigInt"

/-- What is known of a value that comes from one of two sources. -/
def merge (a b : PrimitiveType) : PrimitiveType :=
  if a == unknown || b == unknown then unknown else if a == b then a else mixed

/-- Whether the type is a single named primitive. -/
def isSpecific (t : PrimitiveType) : Bool := t != unknown && t != mixed

/-- A unary minus or complement of a value: a big integer stays one, other primitives do not. -/
def negated : PrimitiveType → PrimitiveType
  | bigInt => bigInt
  | unknown | mixed => mixed
  | _ => number

/-- A sum or concatenation. -/
def sum (left right : PrimitiveType) : PrimitiveType :=
  if left == string || right == string then string
  else if left == bigInt && right == bigInt then bigInt
  else if left.isSpecific && left != bigInt && right.isSpecific && right != bigInt then number
  -- It may be a number, a big integer or a string, or throw.
  else mixed

/-- The left value unless it is nullish, else the right one. -/
def orElse (left right : PrimitiveType) : PrimitiveType :=
  match left with
  | null | undefined => right
  | mixed => if right == unknown then unknown else mixed
  | unknown => unknown
  | _ => left

end PrimitiveType

namespace Expr

/-- The type that an expression produces whenever it produces a value. -/
def primitiveType : Expr → PrimitiveType
  | inlinedEnum _ value _ => value.primitiveType
  | null _ => .null
  | undefined _ => .undefined
  | boolean .. => .boolean
  | number .. => .number
  | string .. => .string
  | bigInt .. => .bigInt
  | template _ none _ _ => .string
  | conditional _ _ yes no => yes.primitiveType.merge no.primitiveType
  | unary _ op value _ =>
    match op with
    | .void => .undefined
    | .typeof => .string
    | .logicalNot | .delete => .boolean
    -- A big integer operand makes this throw.
    | .unaryPlus => .number
    | .unaryNegation | .bitwiseNot => value.primitiveType.negated
    | .prefixIncrement | .prefixDecrement | .postfixIncrement | .postfixDecrement => .mixed
    | _ => .unknown
  | binary _ op left right =>
    match op with
    | .strictEquality | .strictInequality | .equality | .inequality | .lessThan | .greaterThan
    | .lessThanOrEqual | .greaterThanOrEqual | .instanceof | .in_ => .boolean
    | .logicalOr | .logicalAnd => left.primitiveType.merge right.primitiveType
    | .nullishCoalescing => left.primitiveType.orElse right.primitiveType
    | .addition => left.primitiveType.sum right.primitiveType
    | .assignmentAddition => if right.primitiveType == .string then .string else .mixed
    | .subtraction | .multiplication | .division | .remainder | .exponentiation | .bitwiseAnd
    | .bitwiseOr | .bitwiseXor | .bitwiseLeftShift | .bitwiseRightShift
    | .bitwiseUnsignedRightShift | .assignmentSubtraction | .assignmentMultiplication
    | .assignmentDivision | .assignmentRemainder | .assignmentExponentiation
    | .assignmentBitwiseAnd | .assignmentBitwiseOr | .assignmentBitwiseXor
    | .assignmentBitwiseLeftShift | .assignmentBitwiseRightShift
    | .assignmentBitwiseUnsignedRightShift => .mixed
    | .assignment | .comma => right.primitiveType
    | _ => .unknown
  | _ => .unknown

/-- What is known of a value that comes from one of two expressions. -/
def mergedType (a b : Expr) : PrimitiveType := a.primitiveType.merge b.primitiveType

/-- Whether `a === b` may be written `a == b`. -/
def strictMayBeLoose (a b : Expr) : Bool :=
  a.primitiveType == b.primitiveType && a.primitiveType.isSpecific

/-- A literal of a primitive type, also as an inlined constant. -/
def isPrimitiveLiteral (e : Expr) : Bool := e.unwrapped.isPrimitiveLiteralKind

/-- Whether an expression only produces primitives, although evaluating it may have effects. -/
def producesPrimitive : Expr → Bool
  | inlinedEnum _ value _ => value.producesPrimitive
  | null _ | undefined _ | boolean .. | number .. | bigInt .. | string .. => true
  | template _ tag _ _ => tag.isNone
  | unary _ op _ _ =>
    match op with
    | .unaryPlus | .unaryNegation | .bitwiseNot | .prefixIncrement | .prefixDecrement
    | .postfixIncrement | .postfixDecrement | .logicalNot | .delete | .void | .typeof => true
    | _ => false
  | binary _ op left right =>
    match op with
    -- These return one of their operands as it is.
    | .logicalAnd | .logicalOr | .nullishCoalescing | .assignmentLogicalAnd
    | .assignmentLogicalOr | .assignmentNullishCoalescing =>
      left.producesPrimitive && right.producesPrimitive
    | .comma => right.producesPrimitive
    | .assignment => false
    | _ => true
  | conditional _ _ yes no => yes.producesPrimitive && no.producesPrimitive
  | _ => false

end Expr

end EcmaPrune
