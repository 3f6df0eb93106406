import EcmaPrune.Number.BigInt
import EcmaPrune.Operator
import EcmaPrune.Proofs.Semantics.Run

/-! What evaluation takes from outside an expression, and the operations of ECMAScript on values. -/

namespace EcmaPrune

/-- A number of either kind, as arithmetic takes it. -/
inductive Numeric where
  | number (value : Number)
  | bigInt (value : Int)
deriving DecidableEq, Inhabited, Repr

/--
The functions on numbers and texts of which nothing but their types matters here.

The ones that ECMAScript prescribes are one choice of them.
-/
structure Arithmetic where
  /-- Sums, differences, products, quotients, remainders and powers of numbers. -/
  onNumbers : Operator → Number → Number → Number
  /-- The same on big integers, and their bitwise operations; some results do not exist. -/
  onBigInts : Operator → Int → Int → Except Abrupt Int
  numberOfText : List UInt16 → Number
  textOfNumber : Number → List UInt16
  bigIntOfText : List UInt16 → Option Int
  textOfBigInt : Int → List UInt16

/-- What evaluating an expression depends on besides the expression and the world it starts in. -/
structure Host (W : Type) where
  arithmetic : Arithmetic
  /-- The answer to an event, or what it throws, and the world that is left. -/
  answer : Event → W → Except Value Value × W
  /-- What is stored under an identifier, as far as looking there is not an event. -/
  lookup : Ref → W → Value
  /-- Whether reading an identifier does no more than look up what is stored under it. -/
  readsQuietly : Ref → W → Bool
  /-- Whether annotated reads, accesses and calls are taken to be unobservable, as they claim. -/
  trustsAnnotations : Bool
  /-- Whether generated calls that define a public class field count as unobservable too. -/
  fieldCallsAreQuiet : Bool
  /-- What an annotated operation results in, given what had to be evaluated for it. -/
  annotated : Loc → List Value → W → Value
  /-- The identity of the object that a literal at a position creates. -/
  created : Loc → W → Nat
  this : W → Value
  importMeta : Nat
  isCallable : Nat → Bool

/-- Arithmetic in which every result is zero or empty. -/
instance : Inhabited Arithmetic :=
  ⟨fun _ _ _ => .zero, fun _ _ _ => .ok 0, fun _ => .zero, fun _ => [], fun _ => none, fun _ => []⟩

/-- A host in which nothing is stored, everything asked for is undefined and nothing changes. -/
instance {W : Type} : Inhabited (Host W) :=
  ⟨{  arithmetic := default
      answer := fun _ w => (.ok .undefined, w)
      lookup := fun _ _ => .undefined
      readsQuietly := fun _ _ => false
      trustsAnnotations := false
      fieldCallsAreQuiet := false
      annotated := fun _ _ _ => .undefined
      created := fun _ _ => 0
      this := fun _ => .undefined
      importMeta := 0
      isCallable := fun _ => false }⟩

namespace Number

/-- A number with the opposite sign. -/
def negated (x : Number) : Number := ⟨x.bits ^^^ 0x8000000000000000⟩

/-- The result of a bitwise operation, which sees 32 bits of its operands. -/
def bitwise? (op : Operator) (a b : Number) : Option Int :=
  let left := BitVec.ofInt 32 a.toInt32
  let right := BitVec.ofInt 32 b.toInt32
  let distance := b.toUint32 % 32
  match op with
  | .bitwiseAnd => some (left &&& right).toInt
  | .bitwiseOr => some (left ||| right).toInt
  | .bitwiseXor => some (left ^^^ right).toInt
  | .bitwiseLeftShift => some (left <<< distance).toInt
  | .bitwiseRightShift => some (left.sshiftRight distance).toInt
  | .bitwiseUnsignedRightShift => some (left >>> distance).toNat
  | _ => none

end Number

/-- The operator that a compound assignment applies before it assigns. -/
def Operator.compound? : Operator → Option Operator
  | assignmentAddition => some addition
  | assignmentSubtraction => some subtraction
  | assignmentMultiplication => some multiplication
  | assignmentDivision => some division
  | assignmentRemainder => some remainder
  | assignmentExponentiation => some exponentiation
  | assignmentBitwiseAnd => some bitwiseAnd
  | assignmentBitwiseOr => some bitwiseOr
  | assignmentBitwiseXor => some bitwiseXor
  | assignmentBitwiseLeftShift => some bitwiseLeftShift
  | assignmentBitwiseRightShift => some bitwiseRightShift
  | assignmentBitwiseUnsignedRightShift => some bitwiseUnsignedRightShift
  | _ => none

namespace Host

variable {W : Type} (host : Host W)

/-- Makes an event observable and goes on with its answer. -/
def emit (event : Event) : Run W Value := fun w =>
  match host.answer event w with
  | (.ok value, world) => ⟨[event], world, .ok value⟩
  | (.error value, world) => ⟨[event], world, .error (.thrown value)⟩

/-- Converts to a primitive, which for an object is an event and must not give an object again. -/
def toPrimitive (hint : Hint) : Value → Run W Value
  | .object identity => do
    let value ← host.emit (.convert hint identity)
    if value.isObject then Run.abort .typeError else pure value
  | value => pure value

/-- The number that a primitive converts to; symbols do not convert. -/
def numericOf : Value → Run W Numeric
  | .undefined => pure (.number .nan)
  | .null => pure (.number .zero)
  | .boolean value => pure (.number (if value then .one else .zero))
  | .number value => pure (.number value)
  | .string units => pure (.number (host.arithmetic.numberOfText units))
  | .bigInt value => pure (.bigInt value)
  | .symbol _ | .object _ => Run.abort .typeError

/-- The text that a primitive converts to; symbols do not convert. -/
def textOf : Value → Run W (List UInt16)
  | .undefined => pure (Text.units "undefined")
  | .null => pure (Text.units "null")
  | .boolean value => pure (Text.units (if value then "true" else "false"))
  | .number value => pure (host.arithmetic.textOfNumber value)
  | .string units => pure units
  | .bigInt value => pure (host.arithmetic.textOfBigInt value)
  | .symbol _ | .object _ => Run.abort .typeError

/-- Converts to a number of either kind. -/
def toNumeric (value : Value) : Run W Numeric := host.toPrimitive .number value >>= host.numericOf

/-- Converts to a string. -/
def toText (value : Value) : Run W (List UInt16) := host.toPrimitive .string value >>= host.textOf

/-- Converts to a property name, which may be a symbol. -/
def toKey (value : Value) : Run W Value := do
  match ← host.toPrimitive .string value with
  | .symbol identity => pure (.symbol identity)
  | key => return .string (← host.textOf key)

/-- Arithmetic on two numbers of the same kind; they do not mix. -/
def calculate (op : Operator) : Numeric → Numeric → Run W Value
  | .number a, .number b =>
    match Number.bitwise? op a b with
    | some result => pure (.number (.ofInt result))
    | none => pure (.number (host.arithmetic.onNumbers op a b))
  | .bigInt a, .bigInt b =>
    -- Big integers have no highest bit, so there is nothing to shift in at the top.
    if op = .bitwiseUnsignedRightShift then Run.abort .typeError
    else match host.arithmetic.onBigInts op a b with
      | .ok result => pure (.bigInt result)
      | .error abrupt => Run.abort abrupt
  | _, _ => Run.abort .typeError

/-- A sum, or a concatenation if one side is a string once both are primitives. -/
def add (left right : Value) : Run W Value := do
  let a ← host.toPrimitive .default left
  let b ← host.toPrimitive .default right
  if a.type = .string ∨ b.type = .string then
    let first ← host.textOf a
    let second ← host.textOf b
    pure (.string (first ++ second))
  else
    let m ← host.numericOf a
    let n ← host.numericOf b
    host.calculate .addition m n

/-- The number that decides a loose comparison of a primitive that is not a big integer. -/
def looseNumber (value : Value) : Number :=
  match value with
  | .boolean value => if value then .one else .zero
  | .number value => value
  | .string units => host.arithmetic.numberOfText units
  | _ => .nan

/-- Equality under `==` of values of which none has to be converted to a primitive. -/
def looseEqPrimitive (left right : Value) : Bool :=
  if left.isNullish || right.isNullish then left.isNullish && right.isNullish
  else if left.type = right.type then left.strictEq right
  else match left, right with
    | .symbol _, _ | _, .symbol _ | .object _, _ | _, .object _ => false
    | .bigInt n, .string units | .string units, .bigInt n =>
      host.arithmetic.bigIntOfText units == some n
    | .bigInt n, value | value, .bigInt n =>
      (host.looseNumber value).orderToBigInt n == some .eq
    | left, right => (host.looseNumber left).numericEq (host.looseNumber right)

/-- Equality under `==`, which converts an object that is compared with a primitive. -/
def looseEq (left right : Value) : Run W Bool :=
  if left.isObject && !right.isObject && !right.isNullish then do
    return host.looseEqPrimitive (← host.toPrimitive .default left) right
  else if right.isObject && !left.isObject && !left.isNullish then do
    return host.looseEqPrimitive left (← host.toPrimitive .default right)
  else pure (host.looseEqPrimitive left right)

/-- The order of two primitives; nothing if one of them is not a number. -/
def orderOf (left right : Value) : Run W (Option Ordering) :=
  match left, right with
  | .string a, .string b => pure (some (compareOfLessAndEq a b))
  | .bigInt n, .string units =>
    pure ((host.arithmetic.bigIntOfText units).map fun m => compare n m)
  | .string units, .bigInt n =>
    pure ((host.arithmetic.bigIntOfText units).map fun m => compare m n)
  | left, right => do
    match ← host.numericOf left, ← host.numericOf right with
    | .number a, .number b => pure (a.place?.bind fun x => b.place?.map fun y => compare x y)
    | .number a, .bigInt n => pure (a.orderToBigInt n)
    | .bigInt n, .number b => pure ((b.orderToBigInt n).map Ordering.swap)
    | .bigInt n, .bigInt m => pure (some (compare n m))

/-- The answer of an order comparison, which is no if the order is unknown. -/
def holdsFor (op : Operator) (order : Option Ordering) : Bool :=
  match op with
  | .lessThan => order == some .lt
  | .greaterThan => order == some .gt
  | .lessThanOrEqual => order == some .lt || order == some .eq
  | _ => order == some .gt || order == some .eq

/-- Applies an operator to the values of its two operands. -/
def applyBinary (op : Operator) (left right : Value) : Run W Value :=
  match op with
  | .addition => host.add left right
  | .subtraction | .multiplication | .division | .remainder | .exponentiation | .bitwiseAnd
  | .bitwiseOr | .bitwiseXor | .bitwiseLeftShift | .bitwiseRightShift
  | .bitwiseUnsignedRightShift => do
    let m ← host.toNumeric left
    let n ← host.toNumeric right
    host.calculate op m n
  | .strictEquality => pure (.boolean (left.strictEq right))
  | .strictInequality => pure (.boolean !(left.strictEq right))
  | .equality => return .boolean (← host.looseEq left right)
  | .inequality => return .boolean !(← host.looseEq left right)
  | .lessThan | .greaterThan | .lessThanOrEqual | .greaterThanOrEqual => do
    let a ← host.toPrimitive .number left
    let b ← host.toPrimitive .number right
    return .boolean (holdsFor op (← host.orderOf a b))
  | .in_ =>
    if right.isObject then do
      let key ← host.toKey left
      return .boolean (← host.emit (.has right key)).toBoolean
    else Run.abort .typeError
  | .instanceof =>
    if right.isObject then do
      return .boolean (← host.emit (.instanceOf left right)).toBoolean
    else Run.abort .typeError
  -- The others do not take the values of two operands.
  | _ => Run.abort .syntaxError

/-- The name of the type of a value. -/
def typeName (value : Value) : String := value.typeName host.isCallable

/-- Applies an operator to the value of its operand. -/
def applyUnary (op : Operator) (value : Value) : Run W Value :=
  match op with
  | .void => pure .undefined
  | .typeof => pure (.string (Text.units (host.typeName value)))
  | .logicalNot => pure (.boolean !value.toBoolean)
  | .unaryPlus => do
    match ← host.toNumeric value with
    | .number result => pure (.number result)
    | .bigInt _ => Run.abort .typeError
  | .unaryNegation => do
    match ← host.toNumeric value with
    | .number result => pure (.number result.negated)
    | .bigInt result => pure (.bigInt (-result))
  | .bitwiseNot => do
    match ← host.toNumeric value with
    | .number result => pure (.number (.ofInt (-result.toInt32 - 1)))
    | .bigInt result => pure (.bigInt (-result - 1))
  -- The others do not take the value of one operand.
  | _ => Run.abort .syntaxError

/-- Makes a place ready: a member needs something to be a member of, and the name of a property. -/
def resolve : Referent → Run W Referent
  | .member base key =>
    if base.isNullish then Run.abort .typeError
    else return .member base (← host.toKey key)
  | referent => pure referent

/-- Reads an identifier. -/
def read (ref : Ref) (isRemovable mustKeepInWith : Bool) : Run W Value :=
  Run.inWorld fun w =>
    if !mustKeepInWith &&
        ((host.trustsAnnotations && isRemovable) || host.readsQuietly ref w) then
      pure (host.lookup ref w)
    else host.emit (.read ref)

/-- Reads a place that is ready. -/
def loadResolved : Referent → Run W Value
  | .value value => pure value
  | .name ref isRemovable mustKeepInWith => host.read ref isRemovable mustKeepInWith
  | .member base key => host.emit (.get base key)
  | .annotated loc key => Run.inWorld fun w => pure (host.annotated loc key w)

/-- Assigns to a place that is ready. -/
def storeResolved (referent : Referent) (value : Value) : Run W Unit :=
  match referent with
  | .value _ => Run.abort .syntaxError
  | referent => (host.emit (.assign referent value)).ignored

/-- The value of what an expression refers to. -/
def load (referent : Referent) : Run W Value := host.resolve referent >>= host.loadResolved

/-- Assigns to what an expression refers to. -/
def store (referent : Referent) (value : Value) : Run W Unit :=
  host.resolve referent >>= fun referent => host.storeResolved referent value

/-- Deletes what an expression refers to, if it is a place. -/
def remove : Option Referent → Run W Value
  | none => pure (.boolean true)
  | some referent => do
    match ← host.resolve referent with
    | .value _ => pure (.boolean true)
    | place => return .boolean (← host.emit (.delete place)).toBoolean

/-- One more or one less, as an increment or decrement makes it. -/
def stepped (op : Operator) (old : Numeric) : Run W Value :=
  let base := if op = .prefixIncrement ∨ op = .postfixIncrement then .addition else .subtraction
  match old with
  | .number _ => host.calculate base old (.number .one)
  | .bigInt _ => host.calculate base old (.bigInt 1)

/-- Increments or decrements a place that is ready, and results in its new or its old number. -/
def bump (op : Operator) (place : Referent) (old : Value) : Run W Value := do
  let old ← host.toNumeric old
  let new ← host.stepped op old
  host.storeResolved place new
  if op = .prefixIncrement ∨ op = .prefixDecrement then pure new
  else match old with
    | .number value => pure (.number value)
    | .bigInt value => pure (.bigInt value)

/-- Increments or decrements what an expression refers to. -/
def update (op : Operator) : Option Referent → Run W Value
  | none => Run.abort .syntaxError
  | some referent => do
    let place ← host.resolve referent
    host.bump op place (← host.loadResolved place)

end Host

end EcmaPrune
