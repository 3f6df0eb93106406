/-! The operators of ECMAScript expressions, with what printing and rewriting ask of their grammar. -/

namespace EcmaPrune

/-- Every unary, binary and ternary operator, one constructor for each meaning. -/
inductive Operator where
  | addition
  | assignment
  | assignmentAddition
  | assignmentBitwiseAnd
  | assignmentBitwiseLeftShift
  | assignmentBitwiseOr
  | assignmentBitwiseRightShift
  | assignmentBitwiseUnsignedRightShift
  | assignmentBitwiseXor
  | assignmentDivision
  | assignmentExponentiation
  | assignmentLogicalAnd
  | assignmentLogicalOr
  | assignmentMultiplication
  | assignmentNullishCoalescing
  | assignmentRemainder
  | assignmentSubtraction
  | bitwiseAnd
  | bitwiseLeftShift
  | bitwiseNot
  | bitwiseOr
  | bitwiseRightShift
  | bitwiseUnsignedRightShift
  | bitwiseXor
  | comma
  | conditional
  | delete
  | division
  | equality
  | exponentiation
  | greaterThan
  | greaterThanOrEqual
  | in_
  | inequality
  | instanceof
  | lessThan
  | lessThanOrEqual
  | logicalAnd
  | logicalNot
  | logicalOr
  | multiplication
  | nullishCoalescing
  | postfixDecrement
  | postfixIncrement
  | prefixDecrement
  | prefixIncrement
  | remainder
  | strictEquality
  | strictInequality
  | subtraction
  | typeof
  | unaryNegation
  | unaryPlus
  | void
deriving DecidableEq, Inhabited, Repr

/-- The number of operands an operator takes. -/
inductive Arity where
  | unary
  | binary
  | ternary
deriving DecidableEq, Repr

/-- The side on which a chain of one operator nests without parentheses. -/
inductive Associativity where
  | left
  | right
deriving DecidableEq, Repr

namespace Operator

/-- Every operator once. -/
def all : List Operator :=
  [addition, assignment, assignmentAddition, assignmentBitwiseAnd, assignmentBitwiseLeftShift,
    assignmentBitwiseOr, assignmentBitwiseRightShift, assignmentBitwiseUnsignedRightShift,
    assignmentBitwiseXor, assignmentDivision, assignmentExponentiation, assignmentLogicalAnd,
    assignmentLogicalOr, assignmentMultiplication, assignmentNullishCoalescing,
    assignmentRemainder, assignmentSubtraction, bitwiseAnd, bitwiseLeftShift, bitwiseNot,
    bitwiseOr, bitwiseRightShift, bitwiseUnsignedRightShift, bitwiseXor, comma, conditional,
    delete, division, equality, exponentiation, greaterThan, greaterThanOrEqual, in_,
    inequality, instanceof, lessThan, lessThanOrEqual, logicalAnd, logicalNot, logicalOr,
    multiplication, nullishCoalescing, postfixDecrement, postfixIncrement, prefixDecrement,
    prefixIncrement, remainder, strictEquality, strictInequality, subtraction, typeof,
    unaryNegation, unaryPlus, void]

/-- The name under which an operator is stored. -/
def name : Operator → String
  | addition => "Addition"
  | assignment => "Assignment"
  | assignmentAddition => "AssignmentAddition"
  | assignmentBitwiseAnd => "AssignmentBitwiseAnd"
  | assignmentBitwiseLeftShift => "AssignmentBitwiseLeftShift"
  | assignmentBitwiseOr => "AssignmentBitwiseOr"
  | assignmentBitwiseRightShift => "AssignmentBitwiseRightShift"
  | assignmentBitwiseUnsignedRightShift => "AssignmentBitwiseUnsignedRightShift"
  | assignmentBitwiseXor => "AssignmentBitwiseXor"
  | assignmentDivision => "AssignmentDivision"
  | assignmentExponentiation => "AssignmentExponentiation"
  | assignmentLogicalAnd => "AssignmentLogicalAnd"
  | assignmentLogicalOr => "AssignmentLogicalOr"
  | assignmentMultiplication => "AssignmentMultiplication"
  | assignmentNullishCoalescing => "AssignmentNullishCoalescing"
  | assignmentRemainder => "AssignmentRemainder"
  | assignmentSubtraction => "AssignmentSubtraction"
  | bitwiseAnd => "BitwiseAnd"
  | bitwiseLeftShift => "BitwiseLeftShift"
  | bitwiseNot => "BitwiseNot"
  | bitwiseOr => "BitwiseOr"
  | bitwiseRightShift => "BitwiseRightShift"
  | bitwiseUnsignedRightShift => "BitwiseUnsignedRightShift"
  | bitwiseXor => "BitwiseXor"
  | comma => "Comma"
  | conditional => "Conditional"
  | delete => "Delete"
  | division => "Division"
  | equality => "Equality"
  | exponentiation => "Exponentiation"
  | greaterThan => "GreaterThan"
  | greaterThanOrEqual => "GreaterThanOrEqual"
  | in_ => "In"
  | inequality => "Inequality"
  | instanceof => "Instanceof"
  | lessThan => "LessThan"
  | lessThanOrEqual => "LessThanOrEqual"
  | logicalAnd => "LogicalAnd"
  | logicalNot => "LogicalNot"
  | logicalOr => "LogicalOr"
  | multiplication => "Multiplication"
  | nullishCoalescing => "NullishCoalescing"
  | postfixDecrement => "PostfixDecrement"
  | postfixIncrement => "PostfixIncrement"
  | prefixDecrement => "PrefixDecrement"
  | prefixIncrement => "PrefixIncrement"
  | remainder => "Remainder"
  | strictEquality => "StrictEquality"
  | strictInequality => "StrictInequality"
  | subtraction => "Subtraction"
  | typeof => "Typeof"
  | unaryNegation => "UnaryNegation"
  | unaryPlus => "UnaryPlus"
  | void => "Void"

/-- The spelling of an operator; the ternary one is spelled as its two marks. -/
def text : Operator → String
  | addition | unaryPlus => "+"
  | subtraction | unaryNegation => "-"
  | postfixIncrement | prefixIncrement => "++"
  | postfixDecrement | prefixDecrement => "--"
  | bitwiseNot => "~"
  | delete => "delete"
  | logicalNot => "!"
  | typeof => "typeof"
  | void => "void"
  | exponentiation => "**"
  | division => "/"
  | multiplication => "*"
  | remainder => "%"
  | bitwiseLeftShift => "<<"
  | bitwiseRightShift => ">>"
  | bitwiseUnsignedRightShift => ">>>"
  | greaterThan => ">"
  | greaterThanOrEqual => ">="
  | in_ => "in"
  | instanceof => "instanceof"
  | lessThan => "<"
  | lessThanOrEqual => "<="
  | equality => "=="
  | inequality => "!="
  | strictEquality => "==="
  | strictInequality => "!=="
  | bitwiseAnd => "&"
  | bitwiseXor => "^"
  | bitwiseOr => "|"
  | logicalAnd => "&&"
  | logicalOr => "||"
  | nullishCoalescing => "??"
  | assignment => "="
  | assignmentAddition => "+="
  | assignmentBitwiseAnd => "&="
  | assignmentBitwiseLeftShift => "<<="
  | assignmentBitwiseOr => "|="
  | assignmentBitwiseRightShift => ">>="
  | assignmentBitwiseUnsignedRightShift => ">>>="
  | assignmentBitwiseXor => "^="
  | assignmentDivision => "/="
  | assignmentExponentiation => "**="
  | assignmentLogicalAnd => "&&="
  | assignmentLogicalOr => "||="
  | assignmentMultiplication => "*="
  | assignmentNullishCoalescing => "??="
  | assignmentRemainder => "%="
  | assignmentSubtraction => "-="
  | conditional => "?:"
  | comma => ","

/-- The plain assignment and every compound one. -/
def isAssignment : Operator → Bool
  | assignment | assignmentAddition | assignmentBitwiseAnd | assignmentBitwiseLeftShift
  | assignmentBitwiseOr | assignmentBitwiseRightShift | assignmentBitwiseUnsignedRightShift
  | assignmentBitwiseXor | assignmentDivision | assignmentExponentiation | assignmentLogicalAnd
  | assignmentLogicalOr | assignmentMultiplication | assignmentNullishCoalescing
  | assignmentRemainder | assignmentSubtraction => true
  | _ => false

/-- The binding strength, from the comma at 1 up to the increments written after their operand. -/
def precedence : Operator → Nat
  | postfixDecrement | postfixIncrement => 16
  | bitwiseNot | delete | logicalNot | prefixDecrement | prefixIncrement | typeof
  | unaryNegation | unaryPlus | void => 15
  | exponentiation => 14
  | division | multiplication | remainder => 13
  | addition | subtraction => 12
  | bitwiseLeftShift | bitwiseRightShift | bitwiseUnsignedRightShift => 11
  | greaterThan | greaterThanOrEqual | in_ | instanceof | lessThan | lessThanOrEqual => 10
  | equality | inequality | strictEquality | strictInequality => 9
  | bitwiseAnd => 8
  | bitwiseXor => 7
  | bitwiseOr => 6
  | logicalAnd => 5
  | logicalOr | nullishCoalescing => 4
  | comma => 1
  -- What is left are the assignments and the ternary operator.
  | _ => 3

/-- How many operands an operator takes. -/
def arity : Operator → Arity
  | postfixDecrement | postfixIncrement | bitwiseNot | delete | logicalNot | prefixDecrement
  | prefixIncrement | typeof | unaryNegation | unaryPlus | void => .unary
  | conditional => .ternary
  | _ => .binary

/-- Whether an operator takes one operand. -/
def isUnary (op : Operator) : Bool := op.arity == .unary

/-- Unary operators, assignments, the ternary operator and `**` nest to the right. -/
def associativity (op : Operator) : Associativity :=
  if op.isUnary || op.isAssignment || op == exponentiation || op == conditional then .right
  else .left

/-- Unary operators that are written before their operand. -/
def isPrefixed (op : Operator) : Bool :=
  op.isUnary && op != postfixDecrement && op != postfixIncrement

/-- Operators spelled as a word, which must be kept apart from a neighbouring word. -/
def isKeyword : Operator → Bool
  | delete | typeof | void | in_ | instanceof => true
  | _ => false

/-- The four order comparisons. -/
def isRelational : Operator → Bool
  | lessThan | lessThanOrEqual | greaterThan | greaterThanOrEqual => true
  | _ => false

/-- The four equality comparisons. -/
def isEquality : Operator → Bool
  | equality | inequality | strictEquality | strictInequality => true
  | _ => false

/-- The two operators that choose by truth; `??` may not stand beside them unparenthesized. -/
def isAndOr (op : Operator) : Bool := op == logicalAnd || op == logicalOr

/-- The equality operator with the opposite answer; order comparisons have none because of NaN. -/
def negatedEquality : Operator → Option Operator
  | equality => some inequality
  | inequality => some equality
  | strictEquality => some strictInequality
  | strictInequality => some strictEquality
  | _ => none

end Operator

end EcmaPrune
