import EcmaPrune.Proofs.Number.Nearest

/-! The digits that are written for a number read back as that number. -/

namespace EcmaPrune.Number

-- Powers of integers are the ones that come with the language, whatever else is imported.
attribute [local instance (high)] instPowNat

/-- One step of the grid of multiples of `10 ^ step`, over `gridDen`, in units of `2 ^ -1076`. -/
def gridUnit (step : Int) : Nat :=
  (if 0 ≤ step then 10 ^ step.toNat else 1) * 2 ^ (unitPlaces + 2)

/-- What a step of the grid is counted over. -/
def gridDen (step : Int) : Nat := if 0 ≤ step then 1 else 10 ^ (-step).toNat

theorem gridUnit_pos (step : Int) : 0 < gridUnit step := by
  unfold gridUnit
  split
  · exact Nat.mul_pos (Nat.pow_pos (by decide)) (Nat.two_pow_pos _)
  · exact Nat.mul_pos Nat.one_pos (Nat.two_pow_pos _)

theorem gridDen_pos (step : Int) : 0 < gridDen step := by
  unfold gridDen
  split
  · exact Nat.one_pos
  · exact Nat.pow_pos (by decide)

/-- The last place of a number, over the denominator of the grid. -/
theorem lastPlace_pos (x : Number) (step : Int) : 0 < gridDen step * 2 ^ x.scale :=
  Nat.mul_pos (gridDen_pos step) (Nat.two_pow_pos _)

theorem gridPoint?_eq (x : Number) (step : Int) :
    x.gridPoint? step =
      let value := 4 * x.magnitude * gridDen step
      let below := value / gridUnit step
      let fitsBelow := x.interval.contains (below * gridUnit step) (gridDen step)
      let fitsAbove := x.interval.contains ((below + 1) * gridUnit step) (gridDen step)
      if fitsBelow && fitsAbove then
        some (if 2 * (value % gridUnit step) < gridUnit step then below else below + 1)
      else if fitsBelow then some below
      else if fitsAbove then some (below + 1)
      else none :=
  rfl

/-- A grid point that is chosen for a number lies in the interval of the number. -/
theorem contains_of_gridPoint? {x : Number} {step : Int} {point : Nat}
    (chosen : x.gridPoint? step = some point) :
    x.interval.contains (point * gridUnit step) (gridDen step) := by
  rw [gridPoint?_eq] at chosen
  dsimp only at chosen
  -- A point is only given where it has been checked to be in the interval.
  split at chosen
  · rename_i both
    rw [Bool.and_eq_true] at both
    rw [← Option.some.inj chosen]
    split
    · exact both.1
    · exact both.2
  · split at chosen
    · rw [← Option.some.inj chosen]
      assumption
    · split at chosen
      · rw [← Option.some.inj chosen]
        assumption
      · cases chosen

/-- Inside of its ends an interval is the same whether it contains them or not. -/
theorem Interval.contains_of_lt {range : Interval} {num den : Nat} (above : range.low * den < num)
    (below : num < range.high * den) : range.contains num den := by
  unfold contains
  split
  · simp only [Bool.and_eq_true, decide_eq_true_eq]
    exact ⟨Nat.le_of_lt above, Nat.le_of_lt below⟩
  · simp only [Bool.and_eq_true, decide_eq_true_eq]
    exact ⟨above, below⟩

theorem isSome_gridPoint?_of_contains {x : Number} {step : Int} {below : Nat}
    (isBelow : 4 * x.magnitude * gridDen step / gridUnit step = below)
    (fits : x.interval.contains (below * gridUnit step) (gridDen step) ∨
      x.interval.contains ((below + 1) * gridUnit step) (gridDen step)) :
    (x.gridPoint? step).isSome := by
  rw [gridPoint?_eq]
  dsimp only
  rw [isBelow]
  rcases fits with fits | fits
  · rw [fits, Bool.true_and]
    split <;> rfl
  · rw [fits, Bool.and_true]
    split <;> rfl

section

variable {x : Number} {step : Int}
  (fine : gridUnit step * 10 ^ (16 : Nat) ≤ 4 * x.magnitude * gridDen step)
include fine

/--
Two neighbours on a fine grid are closer together than the ends of the interval of a number.

The interval is three quarters of the last place wide at least, and a number has fewer than
`2 ^ 53` last places.
-/
theorem exists_gap : ∃ gap, x.interval.low * gridDen step = 4 * x.magnitude * gridDen step - gap ∧
    gridUnit step < gap + 2 * (gridDen step * 2 ^ x.scale) ∧
      gap ≤ 4 * x.magnitude * gridDen step := by
  have positive := gridUnit_pos step
  have places := lastPlace_pos x step
  have value := magnitude_mul x (gridDen step)
  have few := Nat.mul_le_mul_right (gridDen step * 2 ^ x.scale)
    (Nat.le_of_lt_succ x.significand_lt)
  have notZero : 0 < x.significand := by
    refine Nat.pos_of_ne_zero fun zero => ?_
    rw [value, zero, Nat.zero_mul] at fine
    omega
  have some := Nat.le_mul_of_pos_left (gridDen step * 2 ^ x.scale) notZero
  have start : x.fractionField = 0 ∧ 0 < x.scale →
      x.significand * (gridDen step * 2 ^ x.scale) =
        2 ^ fractionBits * (gridDen step * 2 ^ x.scale) := by
    rintro ⟨noFraction, scaled⟩
    have field : x.exponentField ≠ 0 := by
      unfold scale at scaled
      omega
    rw [significand, if_neg field, noFraction, Nat.add_zero]
  refine ⟨_, value ▸ low_mul x (gridDen step), ?_⟩
  rw [value] at fine ⊢
  simp only [fractionBits] at few start
  split
  · -- At the start of a binade, the number has the fewest last places.
    rename_i short
    have := start short
    omega
  · omega

/-- A grid has a point to choose if a number spans many of its steps. -/
theorem isSome_gridPoint? : (x.gridPoint? step).isSome := by
  have positive := gridUnit_pos step
  obtain ⟨gap, isLow, narrow, inside⟩ := exists_gap fine
  have places := lastPlace_pos x step
  have isHigh : x.interval.high * gridDen step =
      4 * x.magnitude * gridDen step + 2 * (gridDen step * 2 ^ x.scale) := by
    rw [magnitude_mul]
    exact high_mul x (gridDen step)
  have parts := Nat.div_add_mod (4 * x.magnitude * gridDen step) (gridUnit step)
  have rest := Nat.mod_lt (4 * x.magnitude * gridDen step) positive
  refine isSome_gridPoint?_of_contains rfl ?_
  rw [Nat.add_mul, Nat.one_mul, Nat.mul_comm _ (gridUnit step)]
  -- Of the neighbours of the number, the one below is inside or else the one above.
  rcases Nat.lt_or_ge (4 * x.magnitude * gridDen step % gridUnit step) gap with near | far
  · left
    apply Interval.contains_of_lt
    · rw [isLow]
      omega
    · rw [isHigh]
      omega
  · right
    apply Interval.contains_of_lt
    · rw [isLow]
      omega
    · rw [isHigh]
      omega

end

/-- A positive integer is not below the power of ten that has as many digits. -/
theorem pow_length_toDigits_le {n : Nat} (positive : 0 < n) :
    10 ^ ((Nat.toDigits 10 n).length - 1) ≤ n := by
  refine Nat.le_of_not_lt fun small => ?_
  -- A number below that power would have fewer digits.
  by_cases single : (Nat.toDigits 10 n).length - 1 = 0
  · rw [single, Nat.pow_zero] at small
    omega
  · have fewer := (Nat.length_toDigits_le_iff (by decide) (Nat.pos_of_ne_zero single)).mpr small
    omega

section

variable {x : Number} (notZero : 0 < x.magnitude)
include notZero

/-- The digits of a number say how large it is at least. -/
theorem exists_pow_pointOf_le : ∃ up down : Nat, (up : Int) - down = x.pointOf - 1 ∧
    10 ^ up * 2 ^ unitPlaces ≤ x.magnitude * 10 ^ down := by
  unfold pointOf
  dsimp only
  -- A number below one is counted in its last places instead.
  split
  · rename_i positive
    refine ⟨(Nat.toDigits 10 (x.magnitude / 2 ^ unitPlaces)).length - 1, 0, ?_, ?_⟩
    · have := @Nat.length_toDigits_pos 10 (x.magnitude / 2 ^ unitPlaces)
      omega
    · rw [Nat.pow_zero, Nat.mul_one, ← Nat.le_div_iff_mul_le (Nat.two_pow_pos _)]
      exact pow_length_toDigits_le positive
  · have scaled : 0 < x.magnitude * 10 ^ unitDigits / 2 ^ unitPlaces := by
      refine Nat.div_pos ?_ (Nat.two_pow_pos _)
      have enough : 2 ^ unitPlaces ≤ 10 ^ unitDigits := by decide +kernel
      exact Nat.le_trans enough (Nat.le_mul_of_pos_left _ notZero)
    refine ⟨(Nat.toDigits 10 (x.magnitude * 10 ^ unitDigits / 2 ^ unitPlaces)).length - 1,
      unitDigits, ?_, ?_⟩
    · have := @Nat.length_toDigits_pos 10 (x.magnitude * 10 ^ unitDigits / 2 ^ unitPlaces)
      omega
    · rw [← Nat.le_div_iff_mul_le (Nat.two_pow_pos _)]
      exact pow_length_toDigits_le scaled

theorem pow_pointOf_le (up down : Nat) (point : (up : Int) - down = x.pointOf - 1) :
    10 ^ up * 2 ^ unitPlaces ≤ x.magnitude * 10 ^ down := by
  obtain ⟨up', down', point', least⟩ := exists_pow_pointOf_le notZero
  generalize 2 ^ unitPlaces = unit at least ⊢
  -- Any other way to write the exponent differs by a common power of ten.
  have same : up + down' = up' + down := by omega
  refine Nat.le_of_mul_le_mul_right ?_ (Nat.pow_pos (n := down') (a := 10) (by decide))
  calc 10 ^ up * unit * 10 ^ down'
      = 10 ^ (up + down') * unit := by
        rw [Nat.pow_add]
        ac_rfl
    _ = 10 ^ up' * unit * 10 ^ down := by
        rw [same, Nat.pow_add]
        ac_rfl
    _ ≤ x.magnitude * 10 ^ down' * 10 ^ down := Nat.mul_le_mul_right _ least
    _ = x.magnitude * 10 ^ down * 10 ^ down' := by ac_rfl

/-- Seventeen digits are enough to tell a number from all others. -/
theorem isSome_gridPoint?_seventeen : (x.gridPoint? (x.pointOf - 17)).isSome := by
  apply isSome_gridPoint?
  have least := pow_pointOf_le notZero
  unfold gridUnit gridDen
  rw [two_pow_add_two]
  generalize 2 ^ unitPlaces = unit at least ⊢
  split
  · rename_i whole
    have enough := least ((x.pointOf - 17).toNat + 16) 0 (by omega)
    rw [Nat.pow_add, Nat.pow_zero, Nat.mul_one] at enough
    calc 10 ^ (x.pointOf - 17).toNat * (4 * unit) * 10 ^ (16 : Nat)
        = 4 * (10 ^ (x.pointOf - 17).toNat * 10 ^ (16 : Nat) * unit) := by
          rw [Nat.mul_left_comm, Nat.mul_assoc, Nat.mul_right_comm]
      _ ≤ 4 * x.magnitude := Nat.mul_le_mul_left 4 enough
      _ = 4 * x.magnitude * 1 := (Nat.mul_one _).symm
  · rename_i fractional
    have enough := least 16 (-(x.pointOf - 17)).toNat (by omega)
    calc 1 * (4 * unit) * 10 ^ (16 : Nat)
        = 4 * (10 ^ (16 : Nat) * unit) := by rw [Nat.one_mul]; ac_rfl
      _ ≤ 4 * (x.magnitude * 10 ^ (-(x.pointOf - 17)).toNat) := Nat.mul_le_mul_left 4 enough
      _ = 4 * x.magnitude * 10 ^ (-(x.pointOf - 17)).toNat := (Nat.mul_assoc _ _ _).symm

end

/-- Digits are tried until some are found. -/
theorem exists_shortestFrom {x : Number} {fuel count : Nat} (last : Nat) (first : count ≤ last)
    (soon : last < count + fuel) (found : (x.gridPoint? (x.pointOf - last)).isSome) :
    ∃ step point, x.gridPoint? step = some point ∧
      x.shortestFrom fuel count =
        ⟨Nat.toDigits 10 point, step + (Nat.toDigits 10 point).length⟩ := by
  induction fuel generalizing count with
  | zero => omega
  | succ fuel ih =>
    rw [shortestFrom]
    dsimp only
    cases here : x.gridPoint? (x.pointOf - count) with
    | some point => exact ⟨_, point, here, rfl⟩
    | none =>
      -- Where nothing was found, the last count is still ahead.
      have later : count ≠ last := by
        rintro rfl
        rw [here] at found
        cases found
      exact ih (by omega) (by omega)

/-- The digits of a number are those of a grid point that lies in its interval. -/
theorem exists_shortest {x : Number} (notZero : 0 < x.magnitude) :
    ∃ step point, x.gridPoint? step = some point ∧
      x.shortest = ⟨Nat.toDigits 10 point, step + (Nat.toDigits 10 point).length⟩ :=
  exists_shortestFrom 17 (by decide) (by decide) (isSome_gridPoint?_seventeen notZero)

end EcmaPrune.Number
