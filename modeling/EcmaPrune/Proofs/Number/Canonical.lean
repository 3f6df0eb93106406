import EcmaPrune.Proofs.Number
import EcmaPrune.Proofs.Number.Nearest

/-! One number for each value, and what depends on the value alone. -/

namespace EcmaPrune.Number

-- Powers of integers are the ones that come with the language, whatever else is imported.
attribute [local instance (high)] instPowNat

/-- The number that stands for all of its value: one NaN for all of them, one zero for the two. -/
def canonical (x : Number) : Number := if x.isNaN then nan else if x.isZero then zero else x

/-- A significand with a scale tells both, as only the lowest scale has short significands. -/
theorem scale_le_of_magnitude_eq {x y : Number} (equal : x.magnitude = y.magnitude) :
    x.scale ≤ y.scale := by
  refine Nat.not_lt.mp fun larger => ?_
  have leading : 2 ^ fractionBits ≤ x.significand := le_significand (by omega)
  have short := y.significand_lt
  rw [magnitude_eq, magnitude_eq] at equal
  -- One more binade is more than the leading bit can make up for.
  have binade : 2 ^ (y.scale + 1) ≤ 2 ^ x.scale := Nat.pow_le_pow_right (by decide) (by omega)
  have least : 2 ^ fractionBits * 2 ^ (y.scale + 1) ≤ x.significand * 2 ^ x.scale :=
    Nat.mul_le_mul leading binade
  have most : y.significand * 2 ^ y.scale < 2 ^ (fractionBits + 1) * 2 ^ y.scale :=
    Nat.mul_lt_mul_of_pos_right short (Nat.two_pow_pos _)
  have same : 2 ^ (fractionBits + 1) * 2 ^ y.scale = 2 ^ fractionBits * 2 ^ (y.scale + 1) := by
    rw [← Nat.pow_add, ← Nat.pow_add, Nat.add_right_comm, Nat.add_assoc]
  omega

/-- The bits below the sign are the scale and the significand, one behind the other. -/
theorem bits_mod_eq (x : Number) :
    x.bits.toNat % 2 ^ magnitudeBits = x.scale * 2 ^ fractionBits + x.significand := by
  unfold scale significand
  unfold exponentField fractionField
  simp only [fractionBits, exponentBits, magnitudeBits]
  split <;> omega

/-- A magnitude and a sign make up a number. -/
theorem eq_of_magnitude_eq {x y : Number} (equal : x.magnitude = y.magnitude)
    (sameSign : x.isNegative = y.isNegative) : x = y := by
  have scales : x.scale = y.scale :=
    Nat.le_antisymm (scale_le_of_magnitude_eq equal) (scale_le_of_magnitude_eq equal.symm)
  have significands : x.significand = y.significand := by
    rw [magnitude_eq, magnitude_eq, scales] at equal
    exact Nat.eq_of_mul_eq_mul_right (Nat.two_pow_pos _) equal
  have below : x.bits.toNat % 2 ^ magnitudeBits = y.bits.toNat % 2 ^ magnitudeBits := by
    rw [bits_mod_eq, bits_mod_eq, scales, significands]
  have boundX := x.bits.toNat_lt
  have boundY := y.bits.toNat_lt
  -- The sign is the one bit that is left.
  have bits : x.bits.toNat = y.bits.toNat := by
    rw [isNegative, isNegative, decide_eq_decide] at sameSign
    simp only [magnitudeBits] at below sameSign
    omega
  cases x
  cases y
  exact congrArg Number.mk (UInt64.toNat_inj.mp bits)

/-- A place other than that of zero is the place of one number. -/
theorem eq_of_scaled_eq {x y : Number} (equal : x.scaled = y.scaled) (notZero : x.isZero = false) :
    x = y := by
  have positive : x.magnitude ≠ 0 := fun zero => by simp [magnitude_eq_zero.mp zero] at notZero
  -- Numbers of different signs would have places on different sides of zero.
  have sameSign : x.isNegative = y.isNegative := by
    cases signX : x.isNegative <;> cases signY : y.isNegative <;>
      simp only [scaled, signX, signY, Bool.false_eq_true, if_true, if_false] at equal <;>
      first | rfl | omega
  refine eq_of_magnitude_eq ?_ sameSign
  rw [scaled, scaled, sameSign] at equal
  split at equal <;> omega

@[simp] theorem place?_canonical (x : Number) : x.canonical.place? = x.place? := by
  unfold canonical
  split
  · rename_i isNaN
    rw [place?, if_pos (by decide), place?, if_pos isNaN]
  · split
    · rename_i isNumber isZero
      rw [place?, place?, if_neg isNumber, if_neg (by decide), scaled_eq_zero.mpr isZero]
      decide
    · rfl

/-- Numbers are the same value exactly if one number stands for both. -/
theorem same_iff (x y : Number) : x.same y = true ↔ x.canonical = y.canonical := by
  rw [same, beq_iff_eq]
  constructor
  · intro equal
    unfold place? at equal
    unfold canonical
    split at equal
    · split at equal
      · simp [*]
      · cases equal
    · split at equal
      · cases equal
      · -- Two places are equal, and they are those of the zeros or of one number.
        rename_i isNumber isNumber'
        have places : x.scaled = y.scaled := Option.some.inj equal
        cases isZero : x.isZero with
        | true =>
          have isZero' : y.isZero := scaled_eq_zero.mp (places ▸ scaled_eq_zero.mpr isZero)
          simp [isNumber, isNumber', isZero']
        | false =>
          obtain rfl : x = y := eq_of_scaled_eq places isZero
          simp [isNumber, isZero]
  · intro equal
    rw [← place?_canonical x, equal, place?_canonical]

@[simp] theorem canonical_canonical (x : Number) : x.canonical.canonical = x.canonical :=
  (same_iff _ _).mp (by simp [same])

theorem isNaN_eq_isNone (x : Number) : x.isNaN = x.place?.isNone := by
  unfold place?
  split <;> simp [*]

theorem isZero_eq_place? (x : Number) : x.isZero = (x.place? == some 0) := by
  cases isZero : x.isZero with
  | true =>
    simp [place?, isNaN_of_isZero isZero, scaled_eq_zero.mpr isZero]
  | false =>
    have notZero : x.scaled ≠ 0 := fun equal => by simp [scaled_eq_zero.mp equal] at isZero
    unfold place?
    split <;> simp [*]

@[simp] theorem isNaN_canonical (x : Number) : x.canonical.isNaN = x.isNaN := by
  rw [isNaN_eq_isNone, isNaN_eq_isNone, place?_canonical]

@[simp] theorem isZero_canonical (x : Number) : x.canonical.isZero = x.isZero := by
  rw [isZero_eq_place?, isZero_eq_place?, place?_canonical]

@[simp] theorem isTruthy_canonical (x : Number) : x.canonical.isTruthy = x.isTruthy := by
  rw [isTruthy, isTruthy, isNaN_canonical, isZero_canonical]

@[simp] theorem numericEq_canonical (x y : Number) :
    x.canonical.numericEq y.canonical = x.numericEq y := by
  rw [numericEq, numericEq, place?_canonical, place?_canonical]

/-- Positive zero stands for itself. -/
@[simp] theorem canonical_zero : zero.canonical = zero := by decide

end EcmaPrune.Number
