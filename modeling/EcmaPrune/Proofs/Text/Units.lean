import EcmaPrune.Text.Units

/-! The pieces of a string are its code units, cut apart and none of them lost. -/

namespace EcmaPrune.Text

/-- The code units of a code point, which may be that of a surrogate. -/
def unitsOfPoint (point : Nat) : List UInt16 :=
  if point < 0x10000 then [point.toUInt16]
  else
    let offset := point - 0x10000
    [(0xD800 + offset / 0x400).toUInt16, (0xDC00 + offset % 0x400).toUInt16]

theorem unitsOfPoint_toNat (c : Char) : unitsOfPoint c.toNat = unitsOfChar c := rfl

/-- The code units that a piece was made of. -/
def Piece.units : Piece → List UInt16
  | char c => unitsOfChar c
  | lone unit => [unit]

theorem unitsOfPoint_unit (unit : UInt16) : unitsOfPoint unit.toNat = [unit] := by
  have small : unit.toNat < 0x10000 := unit.toNat_lt
  simp [unitsOfPoint, small, Nat.toUInt16]

theorem unitsOfChar_ofNat {point : Nat} (valid : point.isValidChar) :
    unitsOfChar (Char.ofNat point) = unitsOfPoint point := by
  have same : (Char.ofNat point).toNat = point := by
    rw [Char.ofNat, dif_pos valid]
    rfl
  rw [← unitsOfPoint_toNat, same]

/-- A unit that is no surrogate is the code point of a character. -/
theorem unitsOfChar_unit {unit : UInt16}
    (single : (isHighSurrogate unit || isLowSurrogate unit) = false) :
    unitsOfChar (Char.ofNat unit.toNat) = [unit] := by
  have small : unit.toNat < 0x10000 := unit.toNat_lt
  simp only [isHighSurrogate, isLowSurrogate, UInt16.le_iff_toNat_le, Bool.or_eq_false_iff,
    Bool.and_eq_false_imp, decide_eq_true_eq, decide_eq_false_iff_not, UInt16.reduceToNat] at single
  rw [unitsOfChar_ofNat (by simp only [Nat.isValidChar]; omega), unitsOfPoint_unit]

/-- A pair of surrogates is made of the two halves of its character. -/
theorem unitsOfChar_charOfPair {high low : UInt16} (first : isHighSurrogate high)
    (second : isLowSurrogate low) : unitsOfChar (charOfPair high low) = [high, low] := by
  simp only [isHighSurrogate, isLowSurrogate, UInt16.le_iff_toNat_le, Bool.and_eq_true,
    decide_eq_true_eq, UInt16.reduceToNat] at first second
  have beyond : ¬0x10000 + (high.toNat - 0xD800) * 0x400 + (low.toNat - 0xDC00) < 0x10000 := by
    omega
  have offset : 0x10000 + (high.toNat - 0xD800) * 0x400 + (low.toNat - 0xDC00) - 0x10000 =
      (high.toNat - 0xD800) * 0x400 + (low.toNat - 0xDC00) := by omega
  rw [charOfPair, unitsOfChar_ofNat (by simp only [Nat.isValidChar]; omega), unitsOfPoint,
    if_neg beyond, offset]
  -- Each half is what the division by the number of low halves leaves of it.
  have upper : 0xD800 + ((high.toNat - 0xD800) * 0x400 + (low.toNat - 0xDC00)) / 0x400 =
      high.toNat := by omega
  have lower : 0xDC00 + ((high.toNat - 0xD800) * 0x400 + (low.toNat - 0xDC00)) % 0x400 =
      low.toNat := by omega
  simp only [upper, lower]
  simp [Nat.toUInt16]

/-- The pieces of a string, put together again, are the string. -/
theorem flatMap_units_pieces (value : List UInt16) :
    (pieces value).flatMap Piece.units = value := by
  fun_induction pieces value with
  | case1 => rfl
  | case2 unit surrogate => rfl
  | case3 unit single =>
    simpa [Piece.units] using unitsOfChar_unit (by simpa using single)
  | case4 unit next rest pair ih =>
    obtain ⟨first, second⟩ := Bool.and_eq_true_iff.mp pair
    simpa [Piece.units, unitsOfChar_charOfPair first second] using ih
  | case5 unit next rest notPair surrogate ih =>
    simpa [Piece.units] using ih
  | case6 unit next rest notPair single ih =>
    simpa [Piece.units, unitsOfChar_unit (by simpa using single)] using ih

end EcmaPrune.Text
