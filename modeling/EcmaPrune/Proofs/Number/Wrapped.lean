import EcmaPrune.Proofs.Number
import EcmaPrune.Proofs.Number.Nearest
import Mathlib.Data.Int.ModEq
import Mathlib.Data.Rat.Floor

/-! Numbers wrap around to 32-bit integers, and nothing is rounded or cut off on the way. -/

namespace EcmaPrune.Number

-- Powers of integers are the ones that come with the language, whatever else is imported.
attribute [local instance (high)] instPowNat

/-- The exact value of a finite number. -/
def value (x : Number) : ℚ := x.scaled / (2 ^ unitPlaces : Nat)

/-- The integer that is left of a fraction when it is cut off behind the point. -/
def integerPart (q : ℚ) : ℤ := if q < 0 then ⌈q⌉ else ⌊q⌋

/-- The integer part of a number without its sign. -/
def whole (x : Number) : Nat := x.magnitude / 2 ^ unitPlaces

/-- A natural number as a double. -/
structure IsNat (x : Number) (n : Nat) : Prop where
  positive : x.isNegative = false
  finite : x.isFinite
  magnitude : x.magnitude = n * 2 ^ unitPlaces

section Fields

variable {x : Number}

theorem exponentField_lt (finite : x.isFinite) : x.exponentField < lastExponent := by
  -- The last exponent is the greatest that the bits can hold.
  have bounded : x.exponentField < 2 ^ exponentBits := Nat.mod_lt _ (Nat.two_pow_pos _)
  have notLast : x.exponentField ≠ lastExponent := bne_iff_ne.mp finite
  simp only [exponentBits, lastExponent] at bounded notLast ⊢
  omega

/-- The doubles that are not finite are the infinities and the NaNs. -/
theorem isFinite_iff : x.isFinite ↔ x.isNaN = false ∧ x.isInfinite = false := by
  unfold isFinite isNaN isInfinite
  -- The last exponent belongs to the ones or to the others, as the fraction decides.
  cases last : x.exponentField == lastExponent <;> cases fraction : x.fractionField == 0 <;>
    simp [bne, last, fraction]

/-- A significand with a leading bit makes up a number with every scale that leaves room for it. -/
theorem exists_magnitude_eq (significand scale : Nat)
    (short : significand < 2 ^ (fractionBits + 1))
    (leading : scale = 0 ∨ 2 ^ fractionBits ≤ significand) (room : scale + 1 < lastExponent) :
    ∃ x : Number, x.isNegative = false ∧ x.isFinite ∧ x.magnitude = significand * 2 ^ scale := by
  -- The one stands behind the other, so a leading bit carries into the exponent.
  obtain ⟨x, bits⟩ : ∃ x : Number, x.bits.toNat = scale * 2 ^ fractionBits + significand := by
    refine ⟨⟨UInt64.ofNat (scale * 2 ^ fractionBits + significand)⟩, UInt64.toNat_ofNat_of_lt' ?_⟩
    simp only [UInt64.size, fractionBits, lastExponent] at short room ⊢
    omega
  have exponent :
      x.exponentField = if 2 ^ fractionBits ≤ significand then scale + 1 else scale := by
    rw [exponentField, bits]
    simp only [fractionBits, exponentBits, lastExponent] at short room ⊢
    split <;> omega
  have fraction : x.fractionField = significand % 2 ^ fractionBits := by
    rw [fractionField, bits, Nat.mul_add_mod_self_right]
  refine ⟨x, ?_, ?_, ?_⟩
  · rw [isNegative, bits, decide_eq_false_iff_not]
    simp only [fractionBits, magnitudeBits, lastExponent] at short room ⊢
    omega
  · rw [isFinite, bne_iff_ne, exponent]
    split <;> omega
  · rw [magnitude, exponent, fraction]
    by_cases isLeading : 2 ^ fractionBits ≤ significand
    · -- The leading bit is not among the fraction.
      rw [if_pos isLeading, if_neg (Nat.succ_ne_zero _), Nat.add_sub_cancel]
      simp only [fractionBits] at short isLeading ⊢
      congr 1
      omega
    · have lowest : scale = 0 := leading.resolve_right isLeading
      rw [if_neg isLeading, if_pos lowest, lowest, Nat.pow_zero, Nat.mul_one,
        Nat.mod_eq_of_lt (Nat.not_le.mp isLeading)]

end Fields

section IsNat

variable {x : Number} {n : Nat}

/-- Every natural number that has no more bits than a significand is a double. -/
theorem exists_isNat (small : n < 2 ^ (fractionBits + 1)) : ∃ x : Number, x.IsNat n := by
  by_cases zero : n = 0
  · obtain ⟨x, positive, finite, magnitude⟩ :=
      exists_magnitude_eq 0 0 (Nat.two_pow_pos _) (.inl rfl) (by decide)
    exact ⟨x, positive, finite, by rw [magnitude, zero, Nat.zero_mul, Nat.zero_mul]⟩
  · -- The significand is shifted until it has a leading bit.
    obtain ⟨shift, isShift⟩ : ∃ shift, n.log2 + shift = fractionBits :=
      ⟨_, Nat.add_sub_of_le (Nat.le_of_lt_succ ((Nat.log2_lt zero).mpr small))⟩
    have short : n * 2 ^ shift < 2 ^ (fractionBits + 1) := by
      rw [← isShift, Nat.add_right_comm, Nat.pow_add]
      exact Nat.mul_lt_mul_of_pos_right Nat.lt_log2_self (Nat.two_pow_pos _)
    have leading : 2 ^ fractionBits ≤ n * 2 ^ shift := by
      rw [← isShift, Nat.pow_add]
      exact Nat.mul_le_mul_right _ (Nat.log2_self_le zero)
    have room : unitPlaces - shift + 1 < lastExponent :=
      Nat.lt_of_le_of_lt (Nat.succ_le_succ (Nat.sub_le _ _)) (by decide)
    obtain ⟨x, positive, finite, magnitude⟩ :=
      exists_magnitude_eq (n * 2 ^ shift) (unitPlaces - shift) short (.inr leading) room
    have places : shift ≤ unitPlaces :=
      Nat.le_trans (Nat.le_of_add_left_le (Nat.le_of_eq isShift)) (by decide)
    exact ⟨x, positive, finite, by
      rw [magnitude, Nat.mul_assoc, ← Nat.pow_add, Nat.add_sub_of_le places]⟩

theorem nearest_of_isNat {num den : Nat} (isNat : x.IsNat n) (notZero : 0 < den)
    (equal : num = n * den) : nearest false num den = x := by
  refine nearest_of_magnitude_eq isNat.positive (exponentField_lt isNat.finite) notZero ?_
  rw [isNat.magnitude, equal, Nat.mul_right_comm]

theorem IsNat.isNaN (isNat : x.IsNat n) : x.isNaN = false := (isFinite_iff.mp isNat.finite).1

/-- A natural number is its own integer part. -/
theorem IsNat.whole (isNat : x.IsNat n) : x.whole = n := by
  rw [Number.whole, isNat.magnitude, Nat.mul_div_cancel _ (Nat.two_pow_pos _)]

theorem IsNat.value (isNat : x.IsNat n) : x.value = n := by
  have unit : ((2 ^ unitPlaces : Nat) : ℚ) ≠ 0 :=
    Nat.cast_ne_zero.mpr (Nat.pos_iff_ne_zero.mp (Nat.two_pow_pos _))
  -- The units that it is counted in cancel out.
  rw [Number.value, scaled, isNat.positive, if_neg Bool.false_ne_true, isNat.magnitude,
    Int.cast_natCast, Nat.cast_mul, mul_div_cancel_right₀ _ unit]

end IsNat

section Steps

variable {x : Number} {n : Nat}

/-- Taking the sign off leaves the bits below it. -/
theorem toNat_bits_abs (x : Number) : x.abs.bits.toNat = x.bits.toNat % 2 ^ magnitudeBits := by
  rw [abs, ofFields, if_neg Bool.false_ne_true, Nat.zero_add]
  refine UInt64.toNat_ofNat_of_lt' (Nat.lt_trans (Nat.mod_lt _ (Nat.two_pow_pos _)) (by decide))

@[simp] theorem isNegative_abs (x : Number) : x.abs.isNegative = false := by
  rw [isNegative, toNat_bits_abs, decide_eq_false_iff_not, Nat.not_le]
  exact Nat.mod_lt _ (Nat.two_pow_pos _)

@[simp] theorem exponentField_abs (x : Number) : x.abs.exponentField = x.exponentField := by
  rw [exponentField, exponentField, toNat_bits_abs]
  simp only [fractionBits, exponentBits, magnitudeBits]
  omega

@[simp] theorem fractionField_abs (x : Number) : x.abs.fractionField = x.fractionField := by
  rw [fractionField, fractionField, toNat_bits_abs]
  simp only [fractionBits, magnitudeBits]
  omega

@[simp] theorem isFinite_abs (x : Number) : x.abs.isFinite = x.isFinite := by
  rw [isFinite, isFinite, exponentField_abs]

@[simp] theorem magnitude_abs (x : Number) : x.abs.magnitude = x.magnitude := by
  rw [magnitude, magnitude, exponentField_abs, fractionField_abs]

/-- A number of so many binades that its unit is no fraction is an integer. -/
theorem unit_dvd_magnitude (large : 2 ^ (fractionBits + 1) ≤ x.whole) :
    2 ^ unitPlaces ∣ x.magnitude := by
  rw [whole, Nat.le_div_iff_mul_le (Nat.two_pow_pos _), magnitude_eq] at large
  rw [magnitude_eq]
  refine Nat.dvd_mul_left_of_dvd (Nat.pow_dvd_pow 2 (Nat.le_of_not_lt fun fewer => ?_)) _
  -- Fewer binades would leave the magnitude below a significand of whole units.
  have product : x.significand * 2 ^ x.scale < 2 ^ (fractionBits + 1) * 2 ^ unitPlaces :=
    Nat.mul_lt_mul_of_lt_of_le x.significand_lt (Nat.pow_le_pow_right (by decide)
      (Nat.le_of_lt fewer)) (Nat.two_pow_pos _)
  exact absurd large (Nat.not_le.mpr product)

/-- The integer part of a number is a double itself, so cutting it off rounds nothing. -/
theorem isNat_trunc (positive : x.isNegative = false) (finite : x.isFinite) :
    x.trunc.IsNat x.whole := by
  obtain ⟨y, isNat⟩ : ∃ y : Number, y.IsNat x.whole := by
    by_cases small : x.whole < 2 ^ (fractionBits + 1)
    · exact exists_isNat small
    · -- Large numbers have nothing behind the point.
      have isInteger := unit_dvd_magnitude (Nat.not_lt.mp small)
      exact ⟨x, positive, finite, (Nat.div_mul_cancel isInteger).symm⟩
  rw [trunc, if_pos finite, positive]
  exact (nearest_of_isNat isNat Nat.one_pos (Nat.mul_one _).symm).symm ▸ isNat

theorem isNat_wordSize : wordSize.IsNat UInt32.size :=
  ⟨by decide, by decide, by decide +kernel⟩

/-- A remainder of natural numbers is small enough to be a double. -/
theorem isNat_rem_wordSize (isNat : x.IsNat n) : (x.rem wordSize).IsNat (n % UInt32.size) := by
  -- Both numbers are counted in the same units, and so is what remains of their division.
  obtain ⟨y, small⟩ : ∃ y : Number, y.IsNat (n % UInt32.size) :=
    exists_isNat (Nat.lt_trans (Nat.mod_lt _ (by decide)) (by decide))
  have notZero : wordSize.isZero = false := by decide
  rw [rem, isNat.finite, isNat_wordSize.isNaN, notZero, if_neg (by decide), isNat.positive,
    isNat.magnitude, isNat_wordSize.magnitude, Nat.mul_mod_mul_right]
  exact (nearest_of_isNat small (Nat.two_pow_pos _) rfl).symm ▸ small

/-- A natural number that fits into a word is the word it is converted to. -/
theorem toNat_toWord (isNat : x.IsNat n) (small : n < UInt32.size) : x.toWord.toNat = n := by
  rw [toWord, isNat.isNaN, isNat.positive, Bool.or_false, if_neg Bool.false_ne_true]
  -- The number lies below the end at which the conversion would stop.
  have noStop : min (x.magnitude / 2 ^ unitPlaces) (UInt32.size - 1) = n := by
    rw [show x.magnitude / 2 ^ unitPlaces = n from isNat.whole]
    omega
  rw [noStop]
  exact UInt32.toNat_ofNat_of_lt' small

end Steps

section Value

variable {x : Number}

/-- The distance of a number from zero. -/
theorem abs_value (x : Number) : |x.value| = x.magnitude / (2 ^ unitPlaces : Nat) := by
  have distance : |(x.scaled : ℚ)| = x.magnitude := by
    rw [scaled]
    split <;> simp
  rw [value, abs_div, distance, Nat.abs_cast]

theorem floor_abs_value (x : Number) : ⌊|x.value|⌋ = x.whole := by
  -- Rounding a quotient of integers down is dividing them without a remainder.
  rw [abs_value, ← Int.cast_natCast, Rat.floor_intCast_div_natCast, whole, Int.natCast_ediv]

/-- The numbers below zero are those with a sign, except for negative zero. -/
theorem value_neg_iff (finite : x.isFinite) : x.value < 0 ↔ x.isBelowZero := by
  have unit : (0 : ℚ) < (2 ^ unitPlaces : Nat) := Nat.cast_pos.mpr (Nat.two_pow_pos _)
  have below : x.scaled < 0 ↔ x.isNegative ∧ x.magnitude ≠ 0 := by
    unfold scaled
    cases x.isNegative with
    | true =>
      simp only [if_true, true_and]
      omega
    | false => simp
  have zero : x.magnitude ≠ 0 ↔ x.isZero = false := by
    rw [ne_eq, magnitude_eq_zero, Bool.not_eq_true]
  rw [value, div_lt_iff₀ unit, zero_mul, Int.cast_lt_zero, below, zero, isBelowZero,
    (isFinite_iff.mp finite).1]
  simp

/-- Cutting a number off behind the point leaves its whole units, with its sign. -/
theorem integerPart_value (finite : x.isFinite) :
    integerPart x.value = if x.isBelowZero then -(x.whole : ℤ) else x.whole := by
  simp only [integerPart, value_neg_iff finite, ← floor_abs_value]
  split
  · -- Rounding up below zero is rounding down without the sign.
    rename_i below
    rw [abs_of_neg ((value_neg_iff finite).mpr below), Int.floor_neg, neg_neg]
  · rename_i above
    rw [abs_of_nonneg (not_lt.mp (mt (value_neg_iff finite).mp above))]

end Value

section Words

variable {x : Number}

/-- Reading a word as a signed integer wraps it around. -/
theorem toInt_toInt32 (w : UInt32) : w.toInt32.toInt ≡ w.toNat [ZMOD 2 ^ 32] :=
  (congrArg (· % (2 ^ 32 : ℤ)) (BitVec.toInt_eq_toNat_bmod w.toBitVec)).trans Int.bmod_emod

/-- Negating a signed integer wraps the result around. -/
theorem toInt_neg (i : Int32) : (-i).toInt ≡ -i.toInt [ZMOD 2 ^ 32] :=
  (congrArg (· % (2 ^ 32 : ℤ)) (Int32.toInt_neg i)).trans Int.bmod_emod

/--
The steps of the conversion of a finite number, each with the value that it should have.

No step on doubles rounds its result or makes it infinite, and the conversion to a word does not
stop at an end of the range. The steps on words are meant to wrap around, and do no more than that.
-/
structure ConvertsExactly (x : Number) : Prop where
  trunc_finite : x.abs.trunc.isFinite
  trunc_value : x.abs.trunc.value = ⌊|x.value|⌋
  reduced_finite : x.reduced.isFinite
  reduced_value : x.reduced.value = (⌊|x.value|⌋ % 2 ^ 32 : ℤ)
  word_value : x.reduced.toWord.toNat = x.reduced.value
  signed : x.reduced.toWord.toInt32.toInt ≡ ⌊|x.value|⌋ [ZMOD 2 ^ 32]
  negated : (-x.reduced.toWord.toInt32).toInt ≡ -⌊|x.value|⌋ [ZMOD 2 ^ 32]

theorem convertsExactly (finite : x.isFinite) : x.ConvertsExactly := by
  -- Each step takes a natural number to one that is a double again, so none has to round.
  have whole : x.abs.trunc.IsNat x.whole := by
    simpa [Number.whole] using isNat_trunc (isNegative_abs x) ((isFinite_abs x).trans finite)
  have reduced : x.reduced.IsNat (x.whole % UInt32.size) := isNat_rem_wordSize whole
  have word : x.reduced.toWord.toNat = x.whole % UInt32.size :=
    toNat_toWord reduced (Nat.mod_lt _ (by decide))
  have signed : x.reduced.toWord.toInt32.toInt ≡ ⌊|x.value|⌋ [ZMOD 2 ^ 32] := by
    refine (toInt_toInt32 _).trans ?_
    rw [word, floor_abs_value, Int.natCast_emod]
    exact Int.mod_modEq _ _
  exact {
    trunc_finite := whole.finite
    trunc_value := by rw [whole.value, floor_abs_value, Int.cast_natCast]
    reduced_finite := reduced.finite
    reduced_value := by
      rw [reduced.value, floor_abs_value]
      norm_cast
    word_value := by rw [word, reduced.value]
    signed := signed
    negated := (toInt_neg _).trans signed.neg }

theorem toInt32_modEq (finite : x.isFinite) :
    x.toInt32 ≡ integerPart x.value [ZMOD 2 ^ 32] := by
  have exact := convertsExactly finite
  -- The sign that was taken off comes back as a negation.
  rw [toInt32, wrapped, if_pos finite, integerPart_value finite, ← floor_abs_value]
  dsimp only
  split
  · exact exact.negated
  · exact exact.signed

/-- The unsigned integer has the bits of the signed one. -/
theorem toUint32_modEq (x : Number) : x.toUint32 ≡ x.toInt32 [ZMOD 2 ^ 32] :=
  (toInt_toInt32 x.wrapped.toUInt32).symm

/--
The integers that a finite number wraps around to are the ones in their ranges that are congruent
to its integer part, and what is not finite becomes zero.
-/
theorem toInt32_toUint32_eq_iff (x : Number) :
    (x.isFinite →
      (∀ n : ℤ, x.toInt32 = n ↔
        n ≡ integerPart x.value [ZMOD 2 ^ 32] ∧ -2 ^ 31 ≤ n ∧ n < 2 ^ 31) ∧
      (∀ n : ℤ, x.toUint32 = n ↔
        n ≡ integerPart x.value [ZMOD 2 ^ 32] ∧ 0 ≤ n ∧ n < 2 ^ 32) ∧
      x.ConvertsExactly) ∧
    (x.isNaN ∨ x.isInfinite → x.toInt32 = 0 ∧ x.toUint32 = 0) := by
  refine ⟨fun finite => ?_, fun notFinite => ?_⟩
  · have signed := toInt32_modEq finite
    have unsigned := (toUint32_modEq x).trans signed
    have low : -2 ^ 31 ≤ x.toInt32 := x.wrapped.le_toInt
    have high : x.toInt32 < 2 ^ 31 := x.wrapped.toInt_lt
    have top : x.toUint32 < 2 ^ 32 := x.wrapped.toUInt32.toNat_lt
    -- Of the integers that are congruent to one another each range holds exactly one.
    unfold Int.ModEq at *
    refine ⟨fun n => ?_, fun n => ?_, convertsExactly finite⟩ <;> omega
  · have stops : x.isFinite ≠ true := by
      rw [ne_eq, isFinite_iff]
      rcases notFinite with isNaN | isInfinite <;> simp [*]
    rw [toInt32, toUint32, wrapped, if_neg stops]
    decide

/-- A number one half below `-3 * 2 ^ 31` wraps around to the least signed integer. -/
theorem toInt32_toUint32_eq_iff_least :
    let x : Number := ⟨0xC1F8000000080000⟩
    (x.isFinite ∧ x.toInt32 = -2 ^ 31 ∧ x.toUint32 = 2 ^ 31) ∧
      nan.isNaN ∧ nan.toInt32 = 0 ∧ nan.toUint32 = 0 := by
  intro x
  have finite : x.isFinite := by decide
  have part : integerPart x.value = -6442450944 := by
    rw [integerPart_value finite, show x.isBelowZero = true by decide,
      show x.whole = 6442450944 by decide +kernel]
    rfl
  obtain ⟨signed, unsigned, _⟩ := (toInt32_toUint32_eq_iff x).1 finite
  rw [part] at signed unsigned
  have isNaN : nan.isNaN := by decide
  refine ⟨⟨finite, (signed _).mpr (by decide), ?_⟩, isNaN,
    (toInt32_toUint32_eq_iff nan).2 (.inl isNaN)⟩
  have top := (unsigned (2 ^ 31)).mpr (by decide)
  exact_mod_cast top

end Words

end EcmaPrune.Number
