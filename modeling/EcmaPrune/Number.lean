/-! Double-precision numbers, read as exact integers so that every law about them is arithmetic. -/

namespace EcmaPrune

/-- A number value, held as the 64 bits of an IEEE 754 double. -/
structure Number where
  bits : UInt64
deriving DecidableEq, Inhabited, Repr

namespace Number

-- Powers of integers are the ones that come with the language, whatever else is imported.
attribute [local instance (high)] instPowNat

/-- The number of bits that choose a point within a binade. -/
abbrev fractionBits : Nat := 52

/-- The number of bits that choose the binade. -/
abbrev exponentBits : Nat := 11

/-- The number of bits below the sign. -/
abbrev magnitudeBits : Nat := 63

/-- The number of binary places behind the point of the smallest positive double. -/
abbrev unitPlaces : Nat := 1074

/-- The exponent bits of one. -/
abbrev exponentOfOne : Nat := 1023

/-- The exponent bits of everything that is not finite. -/
abbrev lastExponent : Nat := 2047

/-- The sign bit, set for negative zero as well. -/
def isNegative (x : Number) : Bool := 2 ^ magnitudeBits ≤ x.bits.toNat

/-- The eleven bits that choose the binade. -/
def exponentField (x : Number) : Nat := x.bits.toNat / 2 ^ fractionBits % 2 ^ exponentBits

/-- The fifty-two bits that choose a point within the binade. -/
def fractionField (x : Number) : Nat := x.bits.toNat % 2 ^ fractionBits

/-- The values that are not numbers all have the last exponent and a fraction. -/
def isNaN (x : Number) : Bool := x.exponentField == lastExponent && x.fractionField != 0

/-- The two infinities. -/
def isInfinite (x : Number) : Bool := x.exponentField == lastExponent && x.fractionField == 0

/--
The absolute value counted in units of `2 ^ -1074`, the smallest positive double.

An infinity counts as the number at which the next binade would begin, above every finite one.
-/
def magnitude (x : Number) : Nat :=
  if x.exponentField = 0 then x.fractionField
  else (2 ^ fractionBits + x.fractionField) * 2 ^ (x.exponentField - 1)

/-- The place of a number on the extended line, in units of `2 ^ -1074`; both zeros are `0`. -/
def scaled (x : Number) : Int := if x.isNegative then -(x.magnitude : Int) else x.magnitude

/-- The place of a number on the extended line, and nothing for a NaN. -/
def place? (x : Number) : Option Int := if x.isNaN then none else some x.scaled

/-- Assembles a number from its sign and the remaining bits. -/
def ofFields (negative : Bool) (rest : Nat) : Number :=
  ⟨UInt64.ofNat ((if negative then 2 ^ magnitudeBits else 0) + rest)⟩

/-- Positive zero. -/
def zero : Number := ofFields false 0

/-- The number one. -/
def one : Number := ofFields false (exponentOfOne * 2 ^ fractionBits)

/-- The value of undefined arithmetic, in its usual bits. -/
def nan : Number := 
  ofFields false (lastExponent * 2 ^ fractionBits + 2 ^ (fractionBits - 1))

/-- An infinity of the given sign. -/
def infinity (negative : Bool) : Number :=
  ofFields negative (lastExponent * 2 ^ fractionBits)

/-- Neither an infinity nor a NaN. -/
def isFinite (x : Number) : Bool := x.exponentField != lastExponent

/-- The number without its sign. -/
def abs (x : Number) : Number := ofFields false (x.bits.toNat % 2 ^ magnitudeBits)

/-- Either zero. -/
def isZero (x : Number) : Bool := x.exponentField == 0 && x.fractionField == 0

/-- The zero that prints with a sign. -/
def isNegativeZero (x : Number) : Bool := x.isZero && x.isNegative

/-- Below zero, which negative zero and NaN are not. -/
def isBelowZero (x : Number) : Bool := x.isNegative && !x.isNaN && !x.isZero

/-- A number counts as true unless it is a zero or NaN. -/
def isTruthy (x : Number) : Bool := !x.isZero && !x.isNaN

/-- Equality as `===` decides it: NaN differs from itself and the zeros agree. -/
def numericEq (x y : Number) : Bool :=
  match x.place?, y.place? with
  | some a, some b => a == b
  | _, _ => false

/-- Equality for comparing trees: every NaN is the same value, and the zeros agree. -/
def same (x y : Number) : Bool := x.place? == y.place?

/-- The order on the extended line, in which a NaN ties with everything. -/
def order (x y : Number) : Ordering :=
  match x.place?, y.place? with
  | some a, some b => compare a b
  | _, _ => .eq

/-- What a hash of a number depends on: its bits, zero bits for both zeros, nothing for a NaN. -/
def hashKey (x : Number) : Option UInt64 :=
  if x.isZero then some 0 else if x.isNaN then none else some x.bits

/-- The quotient rounded to the nearest integer, a tie going to the even one. -/
def roundTiesEven (num den : Nat) : Nat :=
  let quotient := num / den
  let rest := num % den
  if 2 * rest < den || (2 * rest == den && quotient % 2 == 0) then quotient else quotient + 1

/--
The double nearest to a non-negative fraction, a tie going to the even one.

A quotient of more than 53 bits loses its last `shift` bits. Adding `shift` binades to the rounded
rest gives the bits of the result, also when rounding carries into the next binade.
-/
def nearest (negative : Bool) (num den : Nat) : Number :=
  let units := num * 2 ^ unitPlaces
  let shift := (units / den).log2 - fractionBits
  let rounded := roundTiesEven units (den * 2 ^ shift)
  ofFields negative (min (shift * 2 ^ fractionBits + rounded) (lastExponent * 2 ^ fractionBits))

/-- The double nearest to an integer. -/
def ofInt (n : Int) : Number := nearest (n < 0) n.natAbs 1

/-- The number `2 ^ 32`, of which every 32-bit integer is a remainder. -/
def wordSize : Number := ofFields false ((exponentOfOne + 32) * 2 ^ fractionBits)

/-- The number without what is behind its point; what is not finite stays as it is. -/
def trunc (x : Number) : Number :=
  if x.isFinite then nearest x.isNegative (x.magnitude / 2 ^ unitPlaces) 1 else x

/--
The remainder of a division whose quotient is cut off behind the point; it has the dividend's sign.

An infinite divisor counts as larger than every finite number, so all of the dividend remains.
-/
def rem (x y : Number) : Number :=
  if !x.isFinite || y.isNaN || y.isZero then nan
  else nearest x.isNegative (x.magnitude % y.magnitude) (2 ^ unitPlaces)

/-- Conversion to an unsigned word that stops at the ends of its range; a NaN becomes zero. -/
def toWord (x : Number) : UInt32 :=
  if x.isNaN || x.isNegative then 0
  else UInt32.ofNat (min (x.magnitude / 2 ^ unitPlaces) (UInt32.size - 1))

/-- What remains of the integer part of a number without its sign, modulo `2 ^ 32`. -/
def reduced (x : Number) : Number := x.abs.trunc.rem wordSize

/-- The integer part of a finite number, wrapped around; the sign is put back in the end. -/
def wrapped (x : Number) : Int32 :=
  if x.isFinite then
    let low := x.reduced.toWord.toInt32
    if x.isBelowZero then -low else low
  else 0

/-- Conversion to a signed 32-bit integer. -/
def toInt32 (x : Number) : Int := x.wrapped.toInt

/-- Conversion to an unsigned 32-bit integer, which has the same bits as the signed one. -/
def toUint32 (x : Number) : Nat := x.wrapped.toUInt32.toNat

end Number

end EcmaPrune
