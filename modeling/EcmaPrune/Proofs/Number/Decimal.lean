import EcmaPrune.Proofs.Number
import EcmaPrune.Proofs.Number.Shortest
import Mathlib.Data.List.TakeWhile

/-! The text of a number reads back as that number. -/

namespace EcmaPrune.Number

-- Powers of integers are the ones that come with the language, whatever else is imported.
attribute [local instance (high)] instPowNat

section Reading

variable {negative : Bool} {whole fraction : List Char}

theorem ofDecimal?_whole (notEmpty : whole ≠ []) (digits : whole.all Char.isDigit) :
    ofDecimal? negative whole = some (nearest negative (Nat.ofDigitChars 10 whole 0) 1) := by
  have all := List.all_eq_true.mp digits
  have front : whole.takeWhile Char.isDigit = whole := List.takeWhile_eq_self_iff.mpr all
  have back : whole.dropWhile Char.isDigit = [] := List.dropWhile_eq_nil_iff.mpr all
  unfold ofDecimal?
  simp [front, back, notEmpty]

theorem ofDecimal?_point (notEmpty : whole ≠ []) (digits : whole.all Char.isDigit)
    (notWhole : fraction ≠ []) (places : fraction.all Char.isDigit) :
    ofDecimal? negative (whole ++ '.' :: fraction) =
      some (nearest negative (Nat.ofDigitChars 10 (whole ++ fraction) 0)
        (10 ^ fraction.length)) := by
  have all := List.all_eq_true.mp digits
  have front : (whole ++ '.' :: fraction).takeWhile Char.isDigit = whole := by
    rw [List.takeWhile_append_of_pos all, List.takeWhile_cons_of_neg (by decide), List.append_nil]
  have back : (whole ++ '.' :: fraction).dropWhile Char.isDigit = '.' :: fraction := by
    rw [List.dropWhile_append_of_pos all, List.dropWhile_cons_of_neg (by decide)]
  unfold ofDecimal?
  simpa [front, back, notEmpty, notWhole] using places

end Reading

/-- What is dropped from the front of digits are zeros. -/
theorem exists_leadingZeros (digits : List Char) :
    ∃ zeros, digits = List.replicate zeros '0' ++ digits.dropWhile (· == '0') := by
  induction digits with
  | nil => exact ⟨0, rfl⟩
  | cons c rest ih =>
    by_cases isZero : c = '0'
    · obtain ⟨zeros, same⟩ := ih
      refine ⟨zeros + 1, ?_⟩
      rw [isZero, List.dropWhile_cons_of_pos (by rfl), List.replicate_succ, List.cons_append,
        ← same]
    · exact ⟨0, by rw [List.dropWhile_cons_of_neg (by simpa using isZero)]; rfl⟩

/-- Digits without the zeros they end in. -/
def significantDigits (digits : List Char) : List Char :=
  (digits.reverse.dropWhile (· == '0')).reverse

theorem exists_trailingZeros (digits : List Char) :
    ∃ zeros, digits = significantDigits digits ++ List.replicate zeros '0' := by
  obtain ⟨zeros, same⟩ := exists_leadingZeros digits.reverse
  refine ⟨zeros, ?_⟩
  -- What ends in zeros begins with them, read backwards.
  have turned := congrArg List.reverse same
  rwa [List.reverse_reverse, List.reverse_append, List.reverse_replicate] at turned

section Shown

variable {shown : List Char} (notEmpty : shown ≠ []) (digits : shown.all Char.isDigit)
include notEmpty digits

/-- Zeros between the point and the digits make each digit count for less. -/
theorem ofDecimal?_behindPoint (zeros : Nat) :
    ofDecimal? false ("0.".toList ++ List.replicate zeros '0' ++ shown) =
      some (nearest false (Nat.ofDigitChars 10 shown 0) (10 ^ (zeros + shown.length))) := by
  have places : (List.replicate zeros '0' ++ shown).all Char.isDigit := by
    simp [digits]
  have read := @ofDecimal?_point false ['0'] _ (by simp) (by decide) (by simp [notEmpty]) places
  rw [List.length_append, List.length_replicate, ← List.append_assoc, Nat.ofDigitChars_append,
    ← List.replicate_one, List.replicate_append_replicate, Nat.ofDigitChars_replicate_zero,
    Nat.mul_zero] at read
  simpa using read

/-- Zeros behind the digits make each digit count for more. -/
theorem ofDecimal?_beforePoint (zeros : Nat) :
    ofDecimal? false (shown ++ List.replicate zeros '0') =
      some (nearest false (10 ^ zeros * Nat.ofDigitChars 10 shown 0) 1) := by
  rw [ofDecimal?_whole (by simp [notEmpty]) (by simp [digits]), Nat.ofDigitChars_append,
    Nat.ofDigitChars_replicate_zero]

/-- A point inside the digits makes them count in the places behind it. -/
theorem ofDecimal?_aroundPoint {whole : Nat} (positive : 0 < whole)
    (inside : whole < shown.length) :
    ofDecimal? false (shown.take whole ++ '.' :: shown.drop whole) =
      some (nearest false (Nat.ofDigitChars 10 shown 0) (10 ^ (shown.length - whole))) := by
  -- The digits on both sides of the point are all of them.
  have parts : shown.take whole ++ shown.drop whole = shown := List.take_append_drop _ _
  have both : (shown.take whole ++ shown.drop whole).all Char.isDigit := by
    rwa [parts]
  rw [List.all_append, Bool.and_eq_true] at both
  have front : shown.take whole ≠ [] := by
    intro empty
    rcases List.take_eq_nil_iff.mp empty with none | none
    · omega
    · exact notEmpty none
  have back : shown.drop whole ≠ [] := by
    rw [ne_eq, List.drop_eq_nil_iff]
    omega
  rw [ofDecimal?_point front both.1 back both.2, parts, List.length_drop]

end Shown

/--
The text of digits around a point reads as the number nearest to their value.

The value is that of the significant digits, scaled up by `10 ^ up` and down by `10 ^ down`.
-/
theorem ofDecimal?_positional {digits : List Char} (point : Int) (all : digits.all Char.isDigit)
    (notZero : Nat.ofDigitChars 10 digits 0 ≠ 0) :
    ∃ value zeros up down : Nat, Nat.ofDigitChars 10 digits 0 = 10 ^ zeros * value ∧
      ofDecimal? false (Digits.positional ⟨digits, point⟩).toList =
        some (nearest false (10 ^ up * value) (10 ^ down)) ∧
      (up : Int) - down = point - digits.length + zeros := by
  obtain ⟨zeros, same⟩ := exists_trailingZeros digits
  have significant : (significantDigits digits).all Char.isDigit := by
    rw [same, List.all_append, Bool.and_eq_true] at all
    exact all.1
  have worth : Nat.ofDigitChars 10 digits 0 =
      10 ^ zeros * Nat.ofDigitChars 10 (significantDigits digits) 0 := by
    rw [same, Nat.ofDigitChars_append, Nat.ofDigitChars_replicate_zero, ← same]
  have length : digits.length = (significantDigits digits).length + zeros := by
    rw [same, List.length_append, List.length_replicate, ← same]
  have notEmpty : significantDigits digits ≠ [] := by
    intro empty
    rw [worth, empty] at notZero
    exact notZero (Nat.mul_zero _)
  unfold Digits.positional
  rw [show (digits.reverse.dropWhile (· == '0')).reverse = significantDigits digits from rfl]
  generalize significantDigits digits = shown at *
  dsimp only
  -- The point stands before the digits, behind them or among them.
  by_cases small : point ≤ 0
  · refine ⟨_, zeros, 0, (-point).toNat + shown.length, worth, ?_, by omega⟩
    rw [if_pos small, String.toList_ofList, ofDecimal?_behindPoint notEmpty significant,
      Nat.pow_zero, Nat.one_mul]
  rw [if_neg small]
  split
  · refine ⟨_, zeros, point.toNat - shown.length, 0, worth, ?_, by omega⟩
    rw [String.toList_ofList, ofDecimal?_beforePoint notEmpty significant, Nat.pow_zero]
  · refine ⟨_, zeros, 0, shown.length - point.toNat, worth, ?_, by omega⟩
    rw [String.toList_ofList, Nat.pow_zero, Nat.one_mul]
    exact ofDecimal?_aroundPoint notEmpty significant (by omega) (by omega)

/-- Only the quotient decides whether a fraction lies in an interval. -/
theorem Interval.contains_congr {range : Interval} {num den num' den' : Nat}
    (same : num * den' = num' * den) (positive : 0 < den) (positive' : 0 < den') :
    range.contains num den = range.contains num' den' := by
  -- Each of the four bounds is compared over a common denominator.
  have atLeast : range.low * den ≤ num ↔ range.low * den' ≤ num' := by
    rw [← Nat.mul_le_mul_right_iff positive', same, Nat.mul_right_comm,
      Nat.mul_le_mul_right_iff positive]
  have atMost : num ≤ range.high * den ↔ num' ≤ range.high * den' := by
    rw [← Nat.mul_le_mul_right_iff positive', same, Nat.mul_right_comm,
      Nat.mul_le_mul_right_iff positive]
  have above : range.low * den < num ↔ range.low * den' < num' := by
    rw [← Nat.mul_lt_mul_right positive', same, Nat.mul_right_comm, Nat.mul_lt_mul_right positive]
  have below : num < range.high * den ↔ num' < range.high * den' := by
    rw [← Nat.mul_lt_mul_right positive', same, Nat.mul_right_comm, Nat.mul_lt_mul_right positive]
  simp only [contains, atLeast, atMost, above, below]

/-- One step of the grid is a power of ten. -/
theorem pow_mul_gridDen {step : Int} {up down : Nat} (isStep : (up : Int) - down = step) :
    10 ^ up * 2 ^ (unitPlaces + 2) * gridDen step = 10 ^ down * gridUnit step := by
  unfold gridDen gridUnit
  generalize 2 ^ (unitPlaces + 2) = width
  split
  · rename_i whole
    rw [show up = down + step.toNat by omega, Nat.pow_add]
    ac_rfl
  · rename_i fractional
    rw [show down = up + (-step).toNat by omega, Nat.pow_add]
    ac_rfl

/-- No grid point that is chosen for a positive number is zero. -/
theorem gridPoint?_pos {x : Number} (notZero : 0 < x.magnitude) {step : Int} {point : Nat}
    (chosen : x.gridPoint? step = some point) : 0 < point := by
  refine Nat.pos_of_ne_zero ?_
  rintro rfl
  have inside := contains_of_gridPoint? chosen
  have places := lastPlace_pos x step
  have some : 0 < x.significand := by
    rw [magnitude_eq] at notZero
    exact Nat.pos_of_mul_pos_right notZero
  have product := Nat.le_mul_of_pos_left (gridDen step * 2 ^ x.scale) some
  -- The interval of a positive number starts above zero.
  have low : 0 < x.interval.low * gridDen step := by
    rw [low_mul]
    split <;> omega
  unfold Interval.contains at inside
  rw [Nat.zero_mul] at inside
  split at inside <;> simp only [Bool.and_eq_true, decide_eq_true_eq] at inside <;> omega

/-- Zero is written as the digit that reads back as zero. -/
theorem ofDecimal?_zero {x : Number} (positive : x.isNegative = false)
    (finite : x.exponentField < lastExponent) (isZero : x.isZero) :
    ofDecimal? false ['0'] = some x := by
  have read : ofDecimal? false ['0'] = some (nearest false 0 1) :=
    ofDecimal?_whole (by simp) (by decide)
  refine read.trans (congrArg Option.some ?_)
  refine nearest_of_magnitude_eq positive finite Nat.one_pos ?_
  rw [magnitude_eq_zero.mpr isZero, Nat.zero_mul, Nat.zero_mul]

/-- The shortest digits of a number read back as the number. -/
theorem ofDecimal?_shortest {x : Number} (positive : x.isNegative = false)
    (finite : x.exponentField < lastExponent) (notZero : 0 < x.magnitude) :
    ofDecimal? false x.shortest.positional.toList = some x := by
  obtain ⟨step, point, chosen, shortest⟩ := exists_shortest notZero
  have some := gridPoint?_pos notZero chosen
  have all : (Nat.toDigits 10 point).all Char.isDigit :=
    List.all_eq_true.mpr fun c member => Nat.isDigit_of_mem_toDigits (by decide) (by decide) member
  have worth : Nat.ofDigitChars 10 (Nat.toDigits 10 point) 0 = point :=
    Nat.ofDigitChars_ten_toDigits
  obtain ⟨value, zeros, up, down, isPoint, read, exponent⟩ :=
    ofDecimal?_positional (step + (Nat.toDigits 10 point).length) all (by omega)
  rw [shortest, read]
  refine congrArg Option.some (nearest_of_contains positive finite (Nat.pow_pos (by decide)) ?_)
  have scaled : (up : Int) - (down + zeros : Nat) = step := by omega
  have inside := contains_of_gridPoint? chosen
  -- What is read is the point of the grid that was chosen, over another denominator.
  have same : point * gridUnit step * 10 ^ down =
      10 ^ up * value * 2 ^ (unitPlaces + 2) * gridDen step := by
    have grid := pow_mul_gridDen scaled
    generalize 2 ^ (unitPlaces + 2) = width at grid ⊢
    generalize gridUnit step = unit at grid ⊢
    calc point * unit * 10 ^ down
        = value * (10 ^ (down + zeros) * unit) := by
          rw [← worth, isPoint, Nat.pow_add]
          ac_rfl
      _ = value * (10 ^ up * width * gridDen step) := by rw [grid]
      _ = 10 ^ up * value * width * gridDen step := by ac_rfl
  rwa [Interval.contains_congr same (gridDen_pos step) (Nat.pow_pos (by decide))] at inside

/-- A number that is not below zero is written as digits that read back as this number. -/
theorem ofDecimal?_magnitudeText {x : Number} (positive : x.isNegative = false)
    (finite : x.exponentField < lastExponent) :
    ofDecimal? false x.magnitudeText.toList = some x := by
  have notInfinite : x.isInfinite = false := by
    rw [isInfinite, beq_eq_false_iff_ne.mpr (Nat.ne_of_lt finite)]
    rfl
  rw [magnitudeText, notInfinite, if_neg Bool.false_ne_true]
  by_cases isZero : x.isZero
  · rw [if_pos isZero]
    exact ofDecimal?_zero positive finite isZero
  · have notZero : 0 < x.magnitude :=
      Nat.pos_of_ne_zero fun none => isZero (magnitude_eq_zero.mp none)
    rw [if_neg isZero]
    exact ofDecimal?_shortest positive finite notZero

end EcmaPrune.Number
