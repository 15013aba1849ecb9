/-!
# Binary64 numbers

The floats of the reader are the numbers of the IEEE 754 binary64 format: a sign and a magnitude,
finite or infinite. Magnitudes are coded by consecutive natural numbers in increasing order, and a
finite one is a whole number of units of `2 ^ -1074`. Rounding a ratio takes the nearest magnitude,
and of two equally near ones the one with the even code.
-/

namespace LispReader

namespace Binary64

/-- The number of codes that share an exponent. -/
def codesPerExponent : Nat := 1 <<< 52

/-- The code of infinity, which follows the codes of all finite magnitudes. -/
def infinityCode : Nat := 2047 * codesPerExponent

end Binary64

/-- A sign and the code of a magnitude, which is never that of a NaN. -/
structure Binary64 where
  negative : Bool
  code : Nat
  code_le : code ≤ Binary64.infinityCode
  deriving DecidableEq

namespace Binary64

/-- Positive zero. -/
def zero : Binary64 := ⟨false, 0, Nat.zero_le _⟩

instance : Inhabited Binary64 := ⟨zero⟩

/-- The number of binary places of the least positive magnitude. -/
def binaryPlaces : Nat := 1074

/-- The number of units that make one. -/
def unitsPerOne : Nat := 1 <<< binaryPlaces

/-- A finite magnitude in units. -/
def units (code : Nat) : Nat :=
  let exponent := code / codesPerExponent
  let fraction := code % codesPerExponent
  if exponent = 0 then fraction else (codesPerExponent + fraction) <<< (exponent - 1)

/-- The integer nearest to a ratio; a ratio halfway between two goes to the even one. -/
def roundHalfEven (numerator denominator : Nat) : Nat :=
  let quotient := numerator / denominator
  let excess := 2 * (numerator % denominator)
  if denominator < excess ∨ (denominator = excess ∧ quotient % 2 = 1) then quotient + 1
  else quotient

/-- The code of the magnitude nearest to a ratio; of two equally near ones the even code. -/
def nearestCode (numerator denominator : Nat) : Nat :=
  let scaled := numerator * unitsPerOne
  let shift := Nat.log2 (scaled / denominator) - 52
  min (shift * codesPerExponent + roundHalfEven scaled (denominator <<< shift)) infinityCode

/-- No ratio is rounded past infinity. -/
theorem nearestCode_le (numerator denominator : Nat) :
    nearestCode numerator denominator ≤ infinityCode :=
  Nat.min_le_right _ _

/-- The number nearest to a ratio, with the given sign. -/
def ofRatio (negative : Bool) (numerator denominator : Nat) : Binary64 :=
  ⟨negative, nearestCode numerator denominator, nearestCode_le numerator denominator⟩

/-- Whether the magnitude is finite. -/
def isFinite (number : Binary64) : Bool := number.code < infinityCode

/-- The 64 bits of the interchange format. -/
def bits (number : Binary64) : UInt64 :=
  (if number.negative then 0x8000000000000000 else 0) + number.code.toUInt64

/-! ## Exact ratios -/

/-- One is a positive number of units. -/
theorem unitsPerOne_pos : 0 < unitsPerOne := by
  rw [unitsPerOne, Nat.shiftLeft_eq, Nat.one_mul]
  exact Nat.two_pow_pos _

/-- An exact ratio is rounded to itself. -/
theorem roundHalfEven_mul (quotient denominator : Nat) (positive : 0 < denominator) :
    roundHalfEven (quotient * denominator) denominator = quotient := by
  simp only [roundHalfEven, Nat.mul_div_cancel _ positive, Nat.mul_mod_left]
  rw [if_neg (by omega)]

/-- Below the second exponent a magnitude has as many units as its code. -/
theorem units_of_lt {code : Nat} (small : code < codesPerExponent) : units code = code := by
  simp only [units, Nat.div_eq_of_lt small, if_true, Nat.mod_eq_of_lt small]

/-- From the second exponent on a magnitude is a significand of 53 bits shifted left. -/
theorem units_of_le {code : Nat} (large : codesPerExponent ≤ code) :
    ∃ significand shift, units code = significand <<< shift ∧
      codesPerExponent ≤ significand ∧ significand < 2 * codesPerExponent ∧
      code = shift * codesPerExponent + significand := by
  have positive : 0 < codesPerExponent := by decide
  have exponentPos : 0 < code / codesPerExponent := Nat.div_pos large positive
  have fraction := Nat.mod_lt code positive
  have parts := Nat.div_add_mod' code codesPerExponent
  refine ⟨codesPerExponent + code % codesPerExponent, code / codesPerExponent - 1, ?_,
    Nat.le_add_right _ _, by omega, ?_⟩
  · rw [units, if_neg (by omega)]
  · generalize code / codesPerExponent = exponent at parts exponentPos ⊢
    obtain ⟨shift, rfl⟩ := Nat.exists_eq_succ_of_ne_zero (Nat.ne_of_gt exponentPos)
    rw [Nat.succ_mul] at parts
    simp only [Nat.succ_eq_add_one, Nat.add_sub_cancel]
    omega

/-- A significand of 53 bits fixes the shift that rounding finds. -/
theorem log2_significand {significand shift : Nat} (low : codesPerExponent ≤ significand)
    (high : significand < 2 * codesPerExponent) :
    Nat.log2 (significand <<< shift) = 52 + shift := by
  have positive : 0 < significand := Nat.lt_of_lt_of_le (by decide) low
  have step := Nat.two_pow_pos shift
  rw [Nat.shiftLeft_eq, Nat.log2_eq_iff (Nat.ne_of_gt (Nat.mul_pos positive step)),
    Nat.add_right_comm, Nat.pow_add, Nat.pow_add]
  exact ⟨Nat.mul_le_mul_right _ low, Nat.mul_lt_mul_of_pos_right high step⟩

/-- A finite magnitude is the one nearest to itself, in whatever steps it is counted. -/
theorem nearestCode_units {code steps : Nat} (finite : code < infinityCode) (positive : 0 < steps) :
    nearestCode (units code * steps) (unitsPerOne * steps) = code := by
  have counted : units code * steps * unitsPerOne = units code * (unitsPerOne * steps) := by
    rw [Nat.mul_assoc, Nat.mul_comm steps]
  have stepPositive : 0 < unitsPerOne * steps := Nat.mul_pos unitsPerOne_pos positive
  simp only [nearestCode, counted, Nat.mul_div_cancel _ stepPositive]
  generalize unitsPerOne * steps = step at stepPositive ⊢
  by_cases small : code < codesPerExponent
  · have noShift : Nat.log2 code - 52 = 0 := by
      by_cases zero : code = 0
      · rw [zero]
        rfl
      · have := (Nat.log2_lt (k := 52) zero).mpr small
        omega
    rw [units_of_lt small, noShift, Nat.shiftLeft_zero, roundHalfEven_mul _ _ stepPositive]
    omega
  · obtain ⟨significand, shift, unit, low, high, parts⟩ := units_of_le (Nat.le_of_not_lt small)
    have shifted : Nat.log2 (significand <<< shift) - 52 = shift := by
      rw [log2_significand low high]
      omega
    rw [unit, shifted]
    have exact : significand <<< shift * step = significand * (step <<< shift) := by
      rw [Nat.shiftLeft_eq, Nat.shiftLeft_eq, Nat.mul_assoc, Nat.mul_comm step]
    have shiftedPositive : 0 < step <<< shift := by
      rw [Nat.shiftLeft_eq]
      exact Nat.mul_pos stepPositive (Nat.two_pow_pos shift)
    rw [exact, roundHalfEven_mul _ _ shiftedPositive, ← parts]
    omega

end Binary64

end LispReader
