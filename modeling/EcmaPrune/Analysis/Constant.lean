import EcmaPrune.Number.BigInt
import EcmaPrune.Number.Decimal
import EcmaPrune.Text.Units
import EcmaPrune.Tree

/-! Constants: their numeric values and their equality. -/

namespace EcmaPrune.Expr

/-- The value of a number literal, also as an inlined constant. -/
def numericValue? : Expr → Option Number
  | inlinedEnum _ value _ => value.numericValue?
  | number _ value => some value
  | _ => none

/-- The values of two number literals. -/
def numericValues? (left right : Expr) : Option (Number × Number) :=
  match left.numericValue?, right.numericValue? with
  | some a, some b => some (a, b)
  | _, _ => none

/--
The number that a constant converts to.

Objects are left alone, as their conversion may be redefined, and a string must be written just as
its number prints.
-/
def toNumber? : Expr → Option Number
  | inlinedEnum _ value _ => value.toNumber?
  | null _ => some .zero
  | undefined _ => some .nan
  | boolean _ value => some (if value then .one else .zero)
  | number _ value => some value
  | string _ value =>
    if value.isEmpty then some .zero else (Text.text? value).bind Number.ofText?
  | _ => none

/-- Whether an expression produces a 32-bit integer whenever it produces a number. -/
def isInt32 : Expr → Bool
  | unary _ op _ _ => op == .bitwiseNot
  | binary _ op left right =>
    match op with
    | .bitwiseAnd | .bitwiseOr | .bitwiseXor | .bitwiseLeftShift | .bitwiseRightShift
    | .bitwiseUnsignedRightShift => true
    | .logicalOr | .logicalAnd => left.isInt32 && right.isInt32
    | _ => false
  | conditional _ _ yes no => yes.isInt32 && no.isInt32
  | _ => false

/-- Whether two literals are equal under `===`; nothing if one is not a literal or has no value. -/
def literalEq? (left right : Expr) : Option Bool :=
  match left, right with
  | null _, null _ => some true
  | undefined _, undefined _ => some true
  | boolean _ a, boolean _ b => some (a == b)
  | number _ a, number _ b => some (a.numericEq b)
  | bigInt _ a, bigInt _ b =>
    -- Equal spellings are equal, even where they have no value.
    if a == b then some true
    else match BigInt.value? a, BigInt.value? b with
      | some m, some n => some (m == n)
      | _, _ => none
  | string _ a, string _ b => some (a == b)
  | a, b => if a.isPrimitiveLiteralKind && b.isPrimitiveLiteralKind then some false else none

/-- Whether two constants are equal under `===`, where that is known. -/
def constantEq? (left right : Expr) : Option Bool := literalEq? left.unwrapped right.unwrapped

mutual

/--
Whether two expressions certainly have the same value, if nothing changes between evaluating them.

Equal zeros of different sign do not count, as one may not stand in for the other.
-/
def looksLike (left right : Expr) : Bool :=
  match left with
  | inlinedEnum _ value _ => value.looksLike right
  | identifier _ ref _ _ =>
    match right.unwrapped with
    | identifier _ ref' _ _ => ref == ref'
    | _ => false
  | importIdentifier _ ref =>
    match right.unwrapped with
    | importIdentifier _ ref' => ref == ref'
    | _ => false
  | dot _ target name link _ =>
    match right.unwrapped with
    | dot _ target' name' link' _ => link == link' && name == name' && target.looksLike target'
    | _ => false
  | index _ target key link _ =>
    match right.unwrapped with
    | index _ target' key' link' _ =>
      link == link' && target.looksLike target' && key.looksLike key'
    | _ => false
  | conditional _ test yes no =>
    match right.unwrapped with
    | conditional _ test' yes' no' =>
      test.looksLike test' && yes.looksLike yes' && no.looksLike no'
    | _ => false
  | unary _ op value _ =>
    match right.unwrapped with
    | unary _ op' value' _ => op == op' && value.looksLike value'
    | _ => false
  | binary _ op a b =>
    match right.unwrapped with
    | binary _ op' a' b' => op == op' && a.looksLike a' && b.looksLike b'
    | _ => false
  | call _ target args link isPure kind =>
    match right.unwrapped with
    | call _ target' args' link' isPure' kind' =>
      link == link' && kind == kind' && isPure == isPure' && target.looksLike target' &&
        looksLikeList args args'
    | _ => false
  | number _ value =>
    match right.unwrapped with
    | number _ value' =>
      if value.isZero && value'.isZero then value.isNegative == value'.isNegative
      else value.numericEq value'
    | _ => false
  | e => literalEq? e right.unwrapped == some true

/-- Whether two argument lists look alike one by one. -/
def looksLikeList : List Expr → List Expr → Bool
  | [], [] => true
  | e :: rest, e' :: rest' => e.looksLike e' && looksLikeList rest rest'
  | _, _ => false

end

end EcmaPrune.Expr
