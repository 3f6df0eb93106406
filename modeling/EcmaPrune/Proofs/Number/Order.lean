import EcmaPrune.Proofs.Number.Canonical

/-!
Numbers as keys: equality and hashing agree on all of them, and the order agrees with both wherever
no NaN meets a number.
-/

namespace EcmaPrune.Number

variable {x y : Number}

/-- Being the same value is having the same place, or none. -/
theorem same_eq_true : x.same y = true ↔ x.place? = y.place? := beq_iff_eq

theorem equivalence_same : Equivalence fun x y : Number => x.same y = true where
  refl _ := same_eq_true.mpr rfl
  symm same := same_eq_true.mpr (same_eq_true.mp same).symm
  trans same same' := same_eq_true.mpr ((same_eq_true.mp same).trans (same_eq_true.mp same'))

/-- What stands for a value has its hash. -/
@[simp] theorem hashKey_canonical (x : Number) : x.canonical.hashKey = x.hashKey := by
  unfold canonical
  split
  · rename_i isNaN
    -- A NaN is no zero, so its bits are left out as those of the usual one are.
    have notZero : x.isZero = false := by
      rw [Bool.eq_false_iff]
      intro isZero
      rw [isNaN_of_isZero isZero] at isNaN
      cases isNaN
    rw [show x.hashKey = none by simp [hashKey, notZero, isNaN]]
    decide
  · split
    · rename_i isZero
      rw [show x.hashKey = some 0 by simp [hashKey, isZero]]
      decide
    · rfl

/-- One value has one hash. -/
theorem hashKey_eq_of_same (same : x.same y = true) : x.hashKey = y.hashKey := by
  rw [← hashKey_canonical x, (same_iff x y).mp same, hashKey_canonical]

/-- Turning a comparison around turns its answer around. -/
theorem order_swap (x y : Number) : (x.order y).swap = y.order x := by
  unfold order
  cases x.place? <;> cases y.place? <;> simp [Int.compare_swap]

/-- A NaN ties with everything. -/
theorem order_of_isNaN (isNaN : x.isNaN) (y : Number) : x.order y = .eq := by
  simp [order, place?, isNaN]

theorem order_eq_of_isNaN (x : Number) (isNaN : y.isNaN) : x.order y = .eq := by
  rw [← order_swap, order_of_isNaN isNaN]
  rfl

/-- Numbers other than NaN are in the order of their places. -/
theorem order_eq_compare (isNumber : x.isNaN = false) (isNumber' : y.isNaN = false) :
    x.order y = compare x.scaled y.scaled := by
  simp [order, place?, isNumber, isNumber']

/-- A tie is one value, or a NaN beside a number. -/
theorem order_eq_eq_iff (x y : Number) :
    x.order y = .eq ↔ x.same y ∨ x.isNaN ≠ y.isNaN := by
  rw [same_eq_true]
  cases isNaN : x.isNaN <;> cases isNaN' : y.isNaN
  · rw [order_eq_compare isNaN isNaN', Int.compare_eq_eq]
    simp [place?, isNaN, isNaN']
  · simp [order_eq_of_isNaN x isNaN']
  · simp [order_of_isNaN isNaN y]
  · simp [order_of_isNaN isNaN y, place?, isNaN, isNaN']

/-- Numbers other than NaN are ordered as their places are. -/
instance transCmp_order :
    Std.TransCmp fun x y : { x : Number // x.isNaN = false } => x.1.order y.1 where
  eq_swap {x y} := (order_swap y.1 x.1).symm
  isLE_trans {x y z} less less' := by
    rw [order_eq_compare x.2 y.2] at less
    rw [order_eq_compare y.2 z.2] at less'
    rw [order_eq_compare x.2 z.2]
    exact Std.TransCmp.isLE_trans less less'

/-- Comparisons go on across what stands between, unless that is a NaN between two values. -/
theorem order_trans_iff (x y z : Number) :
    (∀ o, x.order y = o → y.order z = o → x.order z = o) ↔
      (y.isNaN → x.isNaN ∨ z.isNaN ∨ x.same z) := by
  cases isNaN : y.isNaN with
  | true =>
    -- Both comparisons are ties, so the outer two have to tie as well.
    simp only [order_eq_of_isNaN x isNaN, order_of_isNaN isNaN z, forall_eq', forall_const,
      order_eq_eq_iff]
    cases isNaN' : x.isNaN <;> cases isNaN'' : z.isNaN <;>
      simp [same_eq_true, place?, isNaN', isNaN'']
  | false =>
    simp only [Bool.false_eq_true, false_implies, iff_true]
    rintro o first second
    cases isNaN' : x.isNaN with
    | true => rw [← first, order_of_isNaN isNaN', order_of_isNaN isNaN']
    | false =>
      cases isNaN'' : z.isNaN with
      | true => rw [← second, order_eq_of_isNaN x isNaN'', order_eq_of_isNaN y isNaN'']
      | false =>
        rw [order_eq_compare isNaN' isNaN] at first
        rw [order_eq_compare isNaN isNaN''] at second
        rw [order_eq_compare isNaN' isNaN'']
        cases o with
        | lt => exact Std.TransCmp.lt_trans first second
        | eq => exact Std.TransCmp.eq_trans first second
        | gt => exact Std.TransCmp.gt_trans first second

/-- Ties are the equal pairs as long as no NaN meets a number. -/
theorem order_eq_eq_iff_same (x y : Number) :
    (x.order y = .eq ↔ x.same y) ↔ x.isNaN = y.isNaN := by
  rw [order_eq_eq_iff]
  constructor
  · intro tie
    refine Decidable.byContradiction fun differ => ?_
    have same := same_eq_true.mp (tie.mp (.inr differ))
    exact differ (by rw [isNaN_eq_isNone x, isNaN_eq_isNone y, same])
  · intro alike
    simp [alike]

/--
The laws of a key, as far as they go.

Equality is an equivalence that hashing follows, and the order is as good as the order of places
among all numbers but NaN. A NaN ties with every number without being equal to it, so ties and
inequalities do not go on across one.
-/
theorem key_laws (x y z : Number) :
    (x.same x ∧ (x.same y → y.same x) ∧ (x.same y → y.same z → x.same z)) ∧
      (x.same y → x.hashKey = y.hashKey) ∧
      (x.order y).swap = y.order x ∧
      (x.order y = .eq ↔ x.same y ∨ x.isNaN ≠ y.isNaN) ∧
      ((x.order y = .eq ↔ x.same y) ↔ x.isNaN = y.isNaN) ∧
      ((∀ o, x.order y = o → y.order z = o → x.order z = o) ↔
        (y.isNaN → x.isNaN ∨ z.isNaN ∨ x.same z)) ∧
      Std.TransCmp fun x y : { x : Number // x.isNaN = false } => x.1.order y.1 :=
  ⟨⟨equivalence_same.refl x, equivalence_same.symm, equivalence_same.trans⟩, hashKey_eq_of_same,
    order_swap x y, order_eq_eq_iff x y, order_eq_eq_iff_same x y, order_trans_iff x y z,
    transCmp_order⟩

/-- The two zeros are one key. -/
theorem key_laws_zeros :
    let negative := ofFields true 0
    zero.same negative ∧ zero.hashKey = negative.hashKey ∧ zero.order negative = .eq := by
  intro negative
  obtain ⟨_, hash, _, tie, _⟩ := key_laws zero negative zero
  have same : zero.same negative := by decide
  exact ⟨same, hash same, tie.mpr (.inl same)⟩

/-- A NaN ties with zero and with one, which are neither equal to it nor to each other. -/
theorem order_nan_ties :
    (¬∀ x y : Number, x.order y = .eq ↔ x.same y) ∧
      ¬∀ x y z : Number, ∀ o, x.order y = o → y.order z = o → x.order z = o := by
  constructor
  · intro tie
    exact absurd ((tie nan one).mp (by decide)) (by decide)
  · intro trans
    exact absurd (trans zero nan one .eq (by decide) (by decide)) (by decide +kernel)

end EcmaPrune.Number
