import EcmaPrune.Number
import EcmaPrune.Text.Units

/-! The values that expressions evaluate to, and what of them needs no code of the program. -/

namespace EcmaPrune

/-- The type of a value. -/
inductive ValueType where
  | null
  | undefined
  | boolean
  | number
  | string
  | bigInt
  | symbol
  | object
deriving DecidableEq, Inhabited, Repr

/-- A value; symbols and objects are told apart by an identity and are otherwise opaque. -/
inductive Value where
  | null
  | undefined
  | boolean (value : Bool)
  | number (value : Number)
  | string (units : List UInt16)
  | bigInt (value : Int)
  | symbol (identity : Nat)
  | object (identity : Nat)
deriving DecidableEq, Inhabited, Repr

namespace Value

/-- The type of a value. -/
def type : Value → ValueType
  | null => .null
  | undefined => .undefined
  | boolean _ => .boolean
  | number _ => .number
  | string _ => .string
  | bigInt _ => .bigInt
  | symbol _ => .symbol
  | object _ => .object

/-- The two values that stand for the absence of one. -/
def isNullish : Value → Bool
  | null | undefined => true
  | _ => false

/-- Everything that is not a primitive. -/
def isObject : Value → Bool
  | object _ => true
  | _ => false

/-- The truth of a value, as a test asks for it. -/
def toBoolean : Value → Bool
  | null | undefined => false
  | boolean value => value
  | number value => value.isTruthy
  | string units => !units.isEmpty
  | bigInt value => value != 0
  | symbol _ | object _ => true

/-- Equality under `===`, which converts nothing; numbers compare by their place on the line. -/
def strictEq : Value → Value → Bool
  | number a, number b => a.numericEq b
  | a, b => a == b

/-- The name that `typeof` gives to the type of a value; an object may be one that can be called. -/
def typeName (isCallable : Nat → Bool) : Value → String
  | undefined => "undefined"
  | boolean _ => "boolean"
  | number _ => "number"
  | string _ => "string"
  | bigInt _ => "bigint"
  | symbol _ => "symbol"
  | null => "object"
  | object identity => if isCallable identity then "function" else "object"

/-- The names that `typeof` has for types. -/
def typeNames : List String :=
  ["undefined", "boolean", "number", "string", "bigint", "symbol", "object", "function"]

theorem typeName_mem (isCallable : Nat → Bool) (value : Value) :
    value.typeName isCallable ∈ typeNames := by
  cases value with
  | object identity => unfold typeName; split <;> simp [typeNames]
  | _ => simp [typeName, typeNames]

end Value

/-- The order of a number and a big integer, which has a place among the finite numbers. -/
def Number.orderToBigInt (x : Number) (n : Int) : Option Ordering :=
  if x.isNaN then none
  else if x.isInfinite then some (if x.isNegative then .lt else .gt)
  else some (compare x.scaled (n * ((1 <<< unitPlaces : Nat) : Int)))

end EcmaPrune
