import EcmaPrune.Proofs.Semantics.Value

/-! Comparing numbers with zero. -/

namespace EcmaPrune.Number

/-- What is assembled from a sign and bits up to those of infinity is a number. -/
theorem isNaN_ofFields {negative : Bool} {rest : Nat}
    (bounded : rest ≤ lastExponent * 0x10000000000000) :
    (ofFields negative rest).isNaN = false := by
  -- The highest exponent is only reached with an empty fraction, which is an infinity.
  unfold isNaN exponentField fractionField ofFields
  simp only [fractionBits, exponentBits, magnitudeBits, lastExponent] at bounded ⊢
  cases negative <;> simp at bounded ⊢ <;> omega

/-- Every integer has a nearest double or is nearest to an infinity. -/
theorem isNaN_ofInt (n : Int) : (ofInt n).isNaN = false :=
  isNaN_ofFields (Nat.min_le_right _ _)

/-- The zeros are the numbers without a magnitude. -/
theorem magnitude_eq_zero {x : Number} : x.magnitude = 0 ↔ x.isZero := by
  unfold magnitude isZero
  -- Inside the lowest binade the magnitude is the fraction.
  split
  · simp [*]
  · -- Outside the lowest binade there is a leading bit.
    rename_i field
    simp only [field, beq_iff_eq, Nat.mul_eq_zero, Bool.and_eq_true, false_and, iff_false]
    simp

theorem scaled_eq_zero {x : Number} : x.scaled = 0 ↔ x.isZero := by
  rw [← magnitude_eq_zero]
  -- The sign does not matter to whether a magnitude is zero.
  unfold scaled
  split <;> simp

theorem isNaN_of_isZero {x : Number} (zero : x.isZero) : x.isNaN = false := by
  unfold isZero at zero
  unfold isNaN
  simp_all

/-- A number equals a zero if it is one itself. -/
theorem numericEq_zero {x zero : Number} (isNumber : x.isNaN = false) (isZero : zero.isZero) :
    x.numericEq zero = x.isZero := by
  have place : zero.scaled = 0 := scaled_eq_zero.mpr isZero
  simp only [numericEq, place?, isNumber, isNaN_of_isZero isZero, place]
  -- Equal places are all that is left, and one of them is that of zero.
  rw [Bool.eq_iff_iff, ← scaled_eq_zero]
  simp

/-- A big integer equals a zero if it is zero itself. -/
theorem orderToBigInt_zero {zero : Number} (isZero : zero.isZero) (n : Int) :
    zero.orderToBigInt n = some .eq ↔ n = 0 := by
  have place : zero.scaled = 0 := scaled_eq_zero.mpr isZero
  have finite : zero.isInfinite = false := by
    unfold Number.isZero at isZero
    unfold isInfinite
    simp_all
  have unit : ((1 <<< unitPlaces : Nat) : Int) ≠ 0 := by decide
  simp only [orderToBigInt, isNaN_of_isZero isZero, finite, place, Bool.false_eq_true, if_false,
    Option.some.injEq, Int.compare_eq_eq]
  -- The unit that both are counted in is not zero.
  rw [eq_comm, Int.mul_eq_zero, or_iff_left unit]

end EcmaPrune.Number
