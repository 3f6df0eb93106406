import EcmaPrune.Number.Decimal

/-! Every fraction in the interval of a number is nearest to that number. -/

namespace EcmaPrune.Number

-- Powers of integers are the ones that come with the language, whatever else is imported.
attribute [local instance (high)] instPowNat

/-- The binary digits of a number as an integer, the leading bit included. -/
def significand (x : Number) : Nat :=
  if x.exponentField = 0 then x.fractionField else 2 ^ fractionBits + x.fractionField

/-- The number of binades between a number and the smallest one that has all its bits. -/
def scale (x : Number) : Nat := x.exponentField - 1

theorem fractionField_lt (x : Number) : x.fractionField < 2 ^ fractionBits :=
  Nat.mod_lt _ (by decide)

theorem magnitude_eq (x : Number) : x.magnitude = x.significand * 2 ^ x.scale := by
  unfold magnitude significand scale
  split
  · simp [*]
  · rfl

theorem significand_lt (x : Number) : x.significand < 2 ^ (fractionBits + 1) := by
  have fraction := x.fractionField_lt
  unfold significand
  split <;> simp only [fractionBits] at fraction ⊢ <;> omega

/-- A number that is scaled has a leading bit. -/
theorem le_significand {x : Number} (scaled : 0 < x.scale) :
    2 ^ fractionBits ≤ x.significand := by
  unfold scale at scaled
  rw [significand, if_neg (by omega)]
  exact Nat.le_add_right _ _

theorem fractionField_eq (x : Number) :
    x.fractionField = x.significand % 2 ^ fractionBits := by
  have fraction := x.fractionField_lt
  unfold significand
  split <;> simp only [fractionBits] at fraction ⊢ <;> omega

/-- A number without a sign is its scale and its significand, one behind the other. -/
theorem bits_eq {x : Number} (positive : x.isNegative = false) :
    x.bits.toNat = x.scale * 2 ^ fractionBits + x.significand := by
  have small : x.bits.toNat < 2 ^ magnitudeBits := by
    simpa [isNegative] using positive
  unfold scale significand
  unfold exponentField fractionField
  simp only [fractionBits, exponentBits, magnitudeBits] at small ⊢
  split <;> omega

theorem ofFields_bits {x : Number} (positive : x.isNegative = false) :
    ofFields false (x.scale * 2 ^ fractionBits + x.significand) = x := by
  rw [← bits_eq positive, ofFields]
  simp

/--
A quotient rounds to an integer that it is no more than one half away from.

A tie goes to the even integer, so an odd one has to be nearer than that.
-/
theorem roundTiesEven_eq {num den whole : Nat} (above : 2 * (whole * den) ≤ 2 * num + den)
    (below : 2 * num ≤ 2 * (whole * den) + den)
    (odd : whole % 2 = 1 → 2 * (whole * den) < 2 * num + den ∧ 2 * num < 2 * (whole * den) + den)
    (positive : 0 < den) : roundTiesEven num den = whole := by
  have parts := Nat.div_add_mod num den
  have rest := Nat.mod_lt num positive
  unfold roundTiesEven
  generalize num / den = quotient at parts
  generalize num % den = remainder at parts rest
  subst parts
  -- The integer is the quotient without its remainder or the next one.
  have atMost : whole ≤ quotient + 1 := by
    refine Nat.le_of_not_lt fun beyond => ?_
    have := Nat.mul_le_mul_right den (show quotient + 2 ≤ whole from beyond)
    rw [Nat.add_mul, Nat.mul_comm quotient] at this
    omega
  have atLeast : quotient ≤ whole := by
    refine Nat.le_of_not_lt fun short => ?_
    have := Nat.mul_le_mul_right den (show whole + 1 ≤ quotient from short)
    rw [Nat.add_mul, Nat.mul_comm quotient] at this
    omega
  rcases Nat.le_iff_lt_or_eq.mp atMost with isQuotient | rfl
  · obtain rfl : whole = quotient := by omega
    rw [Nat.mul_comm whole] at above below odd
    have rounds : 2 * remainder < den || (2 * remainder == den && whole % 2 == 0) := by
      by_cases isOdd : whole % 2 = 1
      · have := (odd isOdd).2
        simp only [Bool.or_eq_true, decide_eq_true_eq]
        omega
      · simp only [Bool.or_eq_true, Bool.and_eq_true, decide_eq_true_eq, beq_iff_eq]
        omega
    rw [if_pos rounds]
  · rw [Nat.add_mul, Nat.mul_comm quotient] at above below odd
    have stays : ¬(2 * remainder < den || (2 * remainder == den && quotient % 2 == 0)) := by
      simp only [Bool.or_eq_true, Bool.and_eq_true, decide_eq_true_eq, beq_iff_eq]
      by_cases isOdd : (quotient + 1) % 2 = 1
      · have := (odd isOdd).1
        omega
      · omega
    rw [if_neg stays]

/-- The lower end of the interval of a number is half as far away at the start of a binade. -/
theorem low_mul (x : Number) (den : Nat) :
    x.interval.low * den = 4 * (x.significand * (den * 2 ^ x.scale)) -
      (if x.fractionField = 0 ∧ 0 < x.scale then 1 else 2) * (den * 2 ^ x.scale) := by
  have isScaled : 1 < x.exponentField ↔ 0 < x.scale := by
    unfold scale
    omega
  have gap : (if x.fractionField = 0 && 1 < x.exponentField then 2 ^ x.scale else 2 * 2 ^ x.scale) =
      (if x.fractionField = 0 ∧ 0 < x.scale then 1 else 2) * 2 ^ x.scale := by
    simp only [isScaled, Bool.and_eq_true, decide_eq_true_eq]
    split <;> simp
  have low : x.interval.low = 4 * (x.significand * 2 ^ x.scale) -
      (if x.fractionField = 0 ∧ 0 < x.scale then 1 else 2) * 2 ^ x.scale := by
    rw [← gap, ← magnitude_eq]
    rfl
  rw [low, Nat.sub_mul]
  congr 1 <;> ac_rfl

theorem high_mul (x : Number) (den : Nat) :
    x.interval.high * den =
      4 * (x.significand * (den * 2 ^ x.scale)) + 2 * (den * 2 ^ x.scale) := by
  have high : x.interval.high = 4 * (x.significand * 2 ^ x.scale) + 2 * 2 ^ x.scale := by
    rw [← magnitude_eq]
    rfl
  rw [high, Nat.add_mul]
  congr 1 <;> ac_rfl

/-- The number itself, as its interval counts it. -/
theorem magnitude_mul (x : Number) (den : Nat) :
    4 * x.magnitude * den = 4 * (x.significand * (den * 2 ^ x.scale)) := by
  rw [magnitude_eq]
  ac_rfl

theorem closed_interval (x : Number) : x.interval.closed = (x.significand % 2 == 0) := by
  have parity : x.fractionField % 2 = x.significand % 2 := by
    rw [fractionField_eq, fractionBits]
    omega
  rw [← parity]
  rfl

/-- What lies in the interval of a number is no more than half a step away from it. -/
theorem near_of_contains {x : Number} {units den : Nat}
    (inside : x.interval.contains (4 * units) den) :
    2 * (x.significand * (den * 2 ^ x.scale)) ≤ 2 * units + den * 2 ^ x.scale ∧
      2 * units ≤ 2 * (x.significand * (den * 2 ^ x.scale)) + den * 2 ^ x.scale ∧
      (x.significand % 2 = 1 →
        2 * (x.significand * (den * 2 ^ x.scale)) < 2 * units + den * 2 ^ x.scale ∧
          2 * units < 2 * (x.significand * (den * 2 ^ x.scale)) + den * 2 ^ x.scale) ∧
      (x.fractionField = 0 ∧ 0 < x.scale →
        4 * (x.significand * (den * 2 ^ x.scale)) ≤ 4 * units + den * 2 ^ x.scale) := by
  rw [Interval.contains, low_mul, high_mul, closed_interval] at inside
  generalize x.significand * (den * 2 ^ x.scale) = product at inside
  generalize den * 2 ^ x.scale = step at inside
  by_cases even : x.significand % 2 = 0
  · simp only [even, beq_self_eq_true, if_true, Bool.and_eq_true, decide_eq_true_eq] at inside
    split at inside <;> omega
  · have notEven : (x.significand % 2 == 0) = false := beq_eq_false_iff_ne.mpr even
    simp only [notEven, Bool.false_eq_true, if_false, Bool.and_eq_true, decide_eq_true_eq] at inside
    split at inside <;> omega

/-- How many bits of a quotient are lost. -/
theorem log2_sub {quotient scale : Nat} (small : quotient < 2 ^ (fractionBits + 1 + scale))
    (large : scale = 0 ∨ 2 ^ (fractionBits + scale) ≤ quotient) :
    quotient.log2 - fractionBits = scale := by
  by_cases zero : quotient = 0
  · subst zero
    rcases large with rfl | large
    · rfl
    · exact absurd large (Nat.not_le.mpr (Nat.two_pow_pos _))
  · have atMost := (Nat.log2_lt zero).mpr small
    rcases large with rfl | large
    · omega
    · have atLeast := (Nat.le_log2 zero).mpr large
      omega

theorem bits_lt {x : Number} (positive : x.isNegative = false)
    (finite : x.exponentField < lastExponent) :
    x.scale * 2 ^ fractionBits + x.significand < lastExponent * 2 ^ fractionBits := by
  have small : x.bits.toNat < 2 ^ magnitudeBits := by
    simpa [isNegative] using positive
  rw [← bits_eq positive]
  unfold exponentField at finite
  simp only [fractionBits, exponentBits, magnitudeBits, lastExponent] at finite small ⊢
  omega

/-- The width of a binade, over the denominator of a fraction. -/
theorem pow_add_mul (places scale den : Nat) :
    2 ^ (places + scale) * den = 2 ^ places * (den * 2 ^ scale) := by
  rw [Nat.pow_add]
  ac_rfl

/-- Two more binary places count in quarters. -/
theorem two_pow_add_two (places : Nat) : 2 ^ (places + 2) = 4 * 2 ^ places := by
  rw [Nat.pow_add, Nat.mul_comm]

/-- A fraction that rounds to the significand of a number is nearest to that number. -/
theorem nearest_of_rounds {x : Number} {num den scale whole : Nat} (positive : x.isNegative = false)
    (finite : x.exponentField < lastExponent)
    (shift : (num * 2 ^ unitPlaces / den).log2 - fractionBits = scale)
    (rounded : roundTiesEven (num * 2 ^ unitPlaces) (den * 2 ^ scale) = whole)
    (same : scale * 2 ^ fractionBits + whole = x.scale * 2 ^ fractionBits + x.significand) :
    nearest false num den = x := by
  unfold nearest
  generalize num * 2 ^ unitPlaces = units at shift rounded ⊢
  simp only [shift]
  rw [rounded, same, Nat.min_eq_left (Nat.le_of_lt (bits_lt positive finite)),
    ofFields_bits positive]

/-- A fraction right before the binade that a number starts is rounded up into it. -/
theorem nearest_of_below {x : Number} {num den : Nat} (positive : x.isNegative = false)
    (finite : x.exponentField < lastExponent) (notZero : 0 < den) (scaled : 0 < x.scale)
    (isStart : x.significand = 2 ^ fractionBits)
    (short : num * 2 ^ unitPlaces < 2 ^ fractionBits * (den * 2 ^ x.scale))
    (near : 4 * (2 ^ fractionBits * (den * 2 ^ x.scale)) ≤
      4 * (num * 2 ^ unitPlaces) + den * 2 ^ x.scale) :
    nearest false num den = x := by
  obtain ⟨scale, isScale⟩ := Nat.exists_eq_add_one_of_ne_zero (Nat.pos_iff_ne_zero.mp scaled)
  -- The binade before is counted in steps of half the size.
  have double : den * 2 ^ x.scale = 2 * (den * 2 ^ scale) := by
    rw [isScale, Nat.pow_succ]
    ac_rfl
  have half : 0 < den * 2 ^ scale := Nat.mul_pos notZero (Nat.two_pow_pos _)
  have carried : scale * 2 ^ fractionBits + 2 ^ (fractionBits + 1) =
      x.scale * 2 ^ fractionBits + x.significand := by
    have twice : 2 ^ (fractionBits + 1) = 2 ^ fractionBits + 2 ^ fractionBits := rfl
    rw [isScale, isStart, Nat.succ_mul, twice, Nat.add_assoc]
  rw [double] at near short
  refine nearest_of_rounds positive finite ?shift ?rounded carried
  all_goals generalize num * 2 ^ unitPlaces = units at short near ⊢
  case shift =>
    refine log2_sub ?_ (.inr ?_)
    · rw [Nat.div_lt_iff_lt_mul notZero, pow_add_mul]
      simp only [fractionBits] at short ⊢
      omega
    · rw [Nat.le_div_iff_mul_le notZero, pow_add_mul]
      simp only [fractionBits] at near ⊢
      omega
  case rounded =>
    simp only [fractionBits] at near short ⊢
    exact roundTiesEven_eq (by omega) (by omega) (by omega) half

/-- A fraction is nearest to a number if it lies in the interval of the number. -/
theorem nearest_of_contains {x : Number} {num den : Nat} (positive : x.isNegative = false)
    (finite : x.exponentField < lastExponent) (notZero : 0 < den)
    (inside : x.interval.contains (num * 2 ^ (unitPlaces + 2)) den) :
    nearest false num den = x := by
  have quadruple : num * 2 ^ (unitPlaces + 2) = 4 * (num * 2 ^ unitPlaces) := by
    rw [two_pow_add_two]
    exact Nat.mul_left_comm _ _ _
  rw [quadruple] at inside
  obtain ⟨above, below, odd, start⟩ := near_of_contains inside
  by_cases large : x.scale = 0 ∨ 2 ^ fractionBits * (den * 2 ^ x.scale) ≤ num * 2 ^ unitPlaces
  · -- The fraction has as many binary digits as the number.
    have steps : 0 < den * 2 ^ x.scale := Nat.mul_pos notZero (Nat.two_pow_pos _)
    have product := Nat.mul_le_mul_right (den * 2 ^ x.scale) (Nat.le_of_lt_succ x.significand_lt)
    refine nearest_of_rounds positive finite ?_ (roundTiesEven_eq above below odd steps) rfl
    generalize num * 2 ^ unitPlaces = units at below large ⊢
    refine log2_sub ?_ (large.imp id fun atLeast => ?_)
    · rw [Nat.div_lt_iff_lt_mul notZero, pow_add_mul]
      simp only [fractionBits] at product ⊢
      omega
    · rwa [Nat.le_div_iff_mul_le notZero, pow_add_mul]
  · -- The fraction lies right before the binade that the number starts.
    have scaled : 0 < x.scale := Nat.pos_of_ne_zero fun zero => large (.inl zero)
    have short : num * 2 ^ unitPlaces < 2 ^ fractionBits * (den * 2 ^ x.scale) :=
      Nat.not_le.mp fun atLeast => large (.inr atLeast)
    have isStart : x.significand = 2 ^ fractionBits := by
      refine Nat.le_antisymm (Nat.le_of_not_lt fun beyond => ?_) (le_significand scaled)
      have more := Nat.mul_le_mul_right (den * 2 ^ x.scale) (Nat.succ_le_of_lt beyond)
      rw [Nat.succ_mul] at more
      generalize num * 2 ^ unitPlaces = units at above short
      omega
    have noFraction : x.fractionField = 0 := by
      rw [fractionField_eq, isStart, Nat.mod_self]
    have near := start ⟨noFraction, scaled⟩
    rw [isStart] at near
    exact nearest_of_below positive finite notZero scaled isStart short near

/-- A fraction that is the value of a number is nearest to that number. -/
theorem nearest_of_magnitude_eq {x : Number} {num den : Nat} (positive : x.isNegative = false)
    (finite : x.exponentField < lastExponent) (notZero : 0 < den)
    (equal : num * 2 ^ unitPlaces = x.magnitude * den) : nearest false num den = x := by
  refine nearest_of_contains positive finite notZero ?_
  have middle : num * 2 ^ (unitPlaces + 2) = 4 * (x.significand * (den * 2 ^ x.scale)) := by
    rw [two_pow_add_two, Nat.mul_left_comm, equal, ← Nat.mul_assoc, magnitude_mul]
  rw [Interval.contains, low_mul, high_mul, closed_interval, middle]
  by_cases even : x.significand % 2 = 0
  · simp only [even, beq_self_eq_true, if_true, Bool.and_eq_true, decide_eq_true_eq]
    omega
  · -- An odd significand is not zero, so the number lies strictly inside of its interval.
    have step : 0 < den * 2 ^ x.scale := Nat.mul_pos notZero (Nat.two_pow_pos _)
    have some : den * 2 ^ x.scale ≤ x.significand * (den * 2 ^ x.scale) :=
      Nat.le_mul_of_pos_left _ (by omega)
    simp only [beq_eq_false_iff_ne.mpr even, Bool.false_eq_true, if_false, Bool.and_eq_true,
      decide_eq_true_eq]
    split <;> omega

end EcmaPrune.Number
