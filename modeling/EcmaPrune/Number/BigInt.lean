/-! The values of big integer literals. -/

namespace EcmaPrune.BigInt

/-- The value of a digit in bases up to 36, in either case. -/
def digitValue? (c : Char) : Option Nat :=
  if '0' ≤ c && c ≤ '9' then some (c.toNat - 48)
  else if 'a' ≤ c && c ≤ 'z' then some (c.toNat - 87)
  else if 'A' ≤ c && c ≤ 'Z' then some (c.toNat - 55)
  else none

/-- Reads digits of a base, starting from the value of the digits before them. -/
def digits? (base : Nat) (value : Nat) : List Char → Option Nat
  | [] => some value
  | c :: rest =>
    match digitValue? c with
    | some digit => if digit < base then digits? base (value * base + digit) rest else none
    | none => none

/-- Reads at least one digit. -/
def natural? (base : Nat) (chars : List Char) : Option Nat :=
  if chars.isEmpty then none else digits? base 0 chars

/-- Reads an integer with at most one sign in front. -/
def signed? (base : Nat) : List Char → Option Int
  | '-' :: rest => (natural? base rest).map fun n => -(n : Int)
  | '+' :: rest => (natural? base rest).map fun n => (n : Int)
  | chars => (natural? base chars).map fun n => (n : Int)

/-- Splits a base mark off the digits. -/
def baseAndDigits : List Char → Nat × List Char
  | '0' :: 'x' :: rest => (16, rest)
  | '0' :: 'X' :: rest => (16, rest)
  | '0' :: 'o' :: rest => (8, rest)
  | '0' :: 'O' :: rest => (8, rest)
  | '0' :: 'b' :: rest => (2, rest)
  | '0' :: 'B' :: rest => (2, rest)
  | chars => (10, chars)

/-- Leaves out a final suffix letter. -/
def withoutSuffix : List Char → List Char
  | [] => []
  | ['n'] => []
  | c :: rest => c :: withoutSuffix rest

/--
The value of a big integer literal, or nothing if its text is not one.

A suffix letter and underscores are left out first, so a base mark is found in what remains.
-/
def value? (literal : String) : Option Int :=
  let (base, digits) := baseAndDigits ((withoutSuffix literal.toList).filter (· != '_'))
  signed? base digits

/-- Whether a literal is zero, if it has a value. -/
def isZero? (literal : String) : Option Bool := (value? literal).map (· == 0)

end EcmaPrune.BigInt
