import LispReader.Binary64
import LispReader.Text.Numeral

/-!
# Decimals of binary64 numbers

A decimal literal is read as the nearest binary64 number. A finite number is written by the
shortest decimal that reads back as it: the coarsest decimal grid with a point that does so is
searched, of two such points the nearer is taken, and an exact tie goes up. The finest grid holds
every number exactly, so what is written always reads back.
-/

namespace LispReader

/-- The decimal `digits * 10 ^ exponent`. -/
structure Decimal where
  digits : Nat
  exponent : Int
  deriving DecidableEq, Inhabited

namespace Decimal

/-- A power of ten. -/
def powerOfTen (exponent : Nat) : Nat := Nat.pow 10 exponent

/-- A power of five. -/
def powerOfFive (exponent : Nat) : Nat := Nat.pow 5 exponent

/-- The decimal as a ratio of natural numbers. -/
def ratio (decimal : Decimal) : Nat × Nat :=
  (decimal.digits * powerOfTen decimal.exponent.toNat, powerOfTen (-decimal.exponent).toNat)

/-- The code of the magnitude nearest to the decimal. -/
def code (decimal : Decimal) : Nat :=
  Binary64.nearestCode decimal.ratio.1 decimal.ratio.2

/-- The number of digits in which the decimal is written. -/
def length (decimal : Decimal) : Nat := (Numeral.ofNat decimal.digits).length

/-- The exponent of the first digit. -/
def leadingExponent (decimal : Decimal) : Int := decimal.exponent + decimal.length - 1

/-- The exponent of the finest grid, which holds every finite magnitude. -/
def finestExponent : Int := -Binary64.binaryPlaces

/-- A finite magnitude in steps of the finest grid. -/
def finestSteps (code : Nat) : Nat :=
  Binary64.units code * powerOfFive Binary64.binaryPlaces

/-- The number of grids above the finest on which a magnitude can be found. Thirteen bits make
fewer than four digits, so on the last of them the magnitude is less than one step. -/
def gridCount (code : Nat) : Nat := (Nat.log2 (finestSteps code) + 1) * 4 / 13 + 1

/-- The exponents of the grids above the finest on which a magnitude can be found, the coarsest
first. -/
def gridExponents (code : Nat) : List Int :=
  (List.range (gridCount code)).reverse.map fun (place : Nat) => finestExponent + (place + 1)

/-- The number of grid points up to a magnitude, and the remaining part of a grid step as a ratio.
The grid has the points `10 ^ exponent` apart. -/
def gridFloor (units : Nat) (exponent : Int) : Nat × Nat × Nat :=
  let numerator := units * powerOfTen (-exponent).toNat
  let denominator := Binary64.unitsPerOne * powerOfTen exponent.toNat
  (numerator / denominator, numerator % denominator, denominator)

/-- The point of a grid that is written for a magnitude, if the grid has one that reads back. -/
def pick? (code : Nat) (exponent : Int) : Option Decimal :=
  let (floor, rest, step) := gridFloor (Binary64.units code) exponent
  let below : Decimal := ⟨floor, exponent⟩
  let above : Decimal := ⟨floor + 1, exponent⟩
  if below.code = code then
    if above.code = code ∧ step ≤ 2 * rest then some above else some below
  else if above.code = code then some above
  else none

/-- The exact value of a finite magnitude, as a point of the finest grid. -/
def exactly (code : Nat) : Decimal := ⟨finestSteps code, finestExponent⟩

/-- The shortest decimal that reads back as a finite magnitude. -/
def shortest (code : Nat) : Decimal :=
  if code = 0 then ⟨0, 0⟩
  else ((gridExponents code).findSome? (pick? code)).getD (exactly code)

/-! ## Reading back -/

/-- Powers of five are positive. -/
theorem powerOfFive_pos (exponent : Nat) : 0 < powerOfFive exponent := Nat.pow_pos (by decide)

/-- A power of ten is a power of two times a power of five. -/
theorem powerOfTen_eq_mul (exponent : Nat) :
    powerOfTen exponent = (1 <<< exponent) * powerOfFive exponent := by
  rw [powerOfTen, Nat.shiftLeft_eq, Nat.one_mul]
  exact Nat.mul_pow 2 5 exponent

/-- A point picked from a grid reads back. -/
theorem code_of_pick? {code : Nat} {exponent : Int} {decimal : Decimal}
    (picked : pick? code exponent = some decimal) : decimal.code = code := by
  simp only [pick?] at picked
  split at picked
  · rename_i belowReads
    split at picked
    · rename_i aboveReads
      cases picked
      exact aboveReads.1
    · cases picked
      exact belowReads
  · split at picked
    · rename_i aboveReads
      cases picked
      exact aboveReads
    · cases picked

/-- The exact value reads back. -/
theorem code_exactly {code : Nat} (finite : code < Binary64.infinityCode) :
    (exactly code).code = code := by
  have places : (-finestExponent).toNat = Binary64.binaryPlaces := by
    rw [finestExponent, Int.neg_neg, Int.toNat_natCast]
  have whole : finestExponent.toNat = 0 := by
    rw [finestExponent, Int.toNat_neg_natCast]
  have one : powerOfTen 0 = 1 := rfl
  simp only [Decimal.code, exactly, ratio, places, whole, one, Nat.mul_one, finestSteps]
  rw [powerOfTen_eq_mul, ← Binary64.unitsPerOne]
  exact Binary64.nearestCode_units finite (powerOfFive_pos _)

/-- Zero reads back. -/
theorem code_zero : Decimal.code ⟨0, 0⟩ = 0 := by
  have one : powerOfTen 0 = 1 := rfl
  simp only [Decimal.code, ratio, Int.toNat_zero, Int.neg_zero, one, Nat.zero_mul]
  simp [Binary64.nearestCode, Binary64.roundHalfEven]

/-- The shortest decimal of a finite magnitude reads back. -/
theorem code_shortest {code : Nat} (finite : code < Binary64.infinityCode) :
    (shortest code).code = code := by
  unfold shortest
  split
  · rename_i zero
    rw [zero]
    exact code_zero
  · cases found : (gridExponents code).findSome? (pick? code) with
    | none => exact code_exactly finite
    | some decimal =>
      obtain ⟨exponent, -, picked⟩ := List.exists_of_findSome?_eq_some found
      exact code_of_pick? picked

end Decimal

namespace Binary64

/-- The number written by digits, a point and digits, with an optional sign. -/
def read? : List UInt8 → Option Binary64
  | [] => none
  | byte :: rest =>
    let unsigned := if Byte.isSign byte then rest else byte :: rest
    let whole := unsigned.takeWhile Byte.isDigit
    match unsigned.drop whole.length with
    | [] => none
    | point :: fraction =>
      if point == Byte.point && Numeral.isNumeral whole && Numeral.isNumeral fraction then
        some (ofRatio (byte == Byte.minus) (Numeral.value (whole ++ fraction))
          (Decimal.powerOfTen fraction.length))
      else none

end Binary64

/-- How the text of a float is laid out. -/
structure FloatStyle where
  /-- Whether a decimal whose first digit has the given exponent is written positionally. -/
  positional : Int → Bool

namespace FloatStyle

/-- Source text is always positional, because the reader knows no exponents. -/
def source : FloatStyle := ⟨fun _ => true⟩

/-- Inspected values are positional from one ten-thousandth up to, and not including, ten to the
sixteenth. -/
def inspected : FloatStyle := ⟨fun exponent => -4 ≤ exponent && exponent < 16⟩

/-- A decimal with a point and at least one digit on either side. -/
def writePositional (decimal : Decimal) : List UInt8 :=
  let digits := Numeral.ofNat decimal.digits
  match decimal.exponent with
  | .ofNat exponent => digits ++ List.replicate exponent Byte.zero ++ [Byte.point, Byte.zero]
  | .negSucc exponent =>
    let places := exponent + 1
    let padded := List.replicate (places + 1 - digits.length) Byte.zero ++ digits
    padded.take (padded.length - places) ++ Byte.point :: padded.drop (padded.length - places)

/-- A decimal with one digit before the point, if there are more, and an exponent of ten. -/
def writeScientific (decimal : Decimal) : List UInt8 :=
  let mantissa :=
    match Numeral.ofNat decimal.digits with
    | first :: rest@(_ :: _) => first :: Byte.point :: rest
    | digits => digits
  mantissa ++ 0x65 :: Numeral.ofInt decimal.leadingExponent

/-- The text of a magnitude. Infinity has no digits. -/
def writeMagnitude (style : FloatStyle) (code : Nat) : List UInt8 :=
  if code < Binary64.infinityCode then
    let decimal := Decimal.shortest code
    if code == 0 || style.positional decimal.leadingExponent then writePositional decimal
    else writeScientific decimal
  else [0x69, 0x6E, 0x66]

/-- The text of a number. -/
def write (style : FloatStyle) (number : Binary64) : List UInt8 :=
  (if number.negative then [Byte.minus] else []) ++ style.writeMagnitude number.code

end FloatStyle

end LispReader
