import LispReader.Byte

/-!
# Decimal numerals

Numerals are lists of ASCII digits with the most significant digit first. Writing gives the numeral
without leading zeros, reading accepts any numeral, and reading what was written gives the number
back. Fixed-width readers refuse what does not fit.
-/

namespace LispReader

namespace Numeral

/-- The number a digit stands for. -/
def digitValue (byte : UInt8) : Nat := (byte - Byte.zero).toNat

/-- The digit that stands for a number below ten. -/
def digit (value : Nat) : UInt8 := (48 + value).toUInt8

/-- The number that a run of digits stands for, after `high` has been read before it. -/
def valueAfter (high : Nat) : List UInt8 → Nat
  | [] => high
  | byte :: rest => valueAfter (10 * high + digitValue byte) rest

/-- The number that a run of digits stands for. -/
def value (digits : List UInt8) : Nat := valueAfter 0 digits

/-- The numeral of a number, without leading zeros. -/
def ofNat (number : Nat) : List UInt8 :=
  if number < 10 then [digit number] else ofNat (number / 10) ++ [digit (number % 10)]
  termination_by number

/-- Whether a run is a numeral: digits only, and at least one. -/
def isNumeral (digits : List UInt8) : Bool := !digits.isEmpty && digits.all Byte.isDigit

/-- The natural number written by a numeral with an optional plus sign. -/
def readNat? : List UInt8 → Option Nat
  | [] => none
  | byte :: rest =>
    let digits := if byte == Byte.plus then rest else byte :: rest
    if isNumeral digits then some (value digits) else none

/-- The integer written by a numeral with an optional sign. -/
def readInt? : List UInt8 → Option Int
  | [] => none
  | byte :: rest =>
    let digits := if Byte.isSign byte then rest else byte :: rest
    if isNumeral digits then
      some (if byte == Byte.minus then -(value digits : Int) else (value digits : Int))
    else none

/-- The numeral of an integer, with a minus sign below zero. -/
def ofInt : Int → List UInt8
  | .ofNat number => ofNat number
  | .negSucc number => Byte.minus :: ofNat (number + 1)

/-- The integers of 64 bits in two's complement. -/
def fitsInt64 (number : Int) : Bool :=
  Int64.minValue.toInt ≤ number && number ≤ Int64.maxValue.toInt

/-- The 64-bit integer written by a numeral with an optional sign, if it fits. -/
def readInt64? (text : List UInt8) : Option Int64 :=
  match readInt? text with
  | none => none
  | some number => if fitsInt64 number then some (Int64.ofInt number) else none

/-- A further digit is worth its value after ten times what came before it. -/
theorem valueAfter_cons (high : Nat) (byte : UInt8) (rest : List UInt8) :
    valueAfter high (byte :: rest) = valueAfter (10 * high + digitValue byte) rest := rfl

/-- Digits read one after the other extend the number already read. -/
theorem valueAfter_append (high : Nat) (first second : List UInt8) :
    valueAfter high (first ++ second) = valueAfter (valueAfter high first) second := by
  induction first generalizing high with
  | nil => rfl
  | cons byte rest ih => exact ih _

/-- A digit stands for the number it was made from. -/
theorem digitValue_digit {number : Nat} (small : number < 10) :
    digitValue (digit number) = number := by
  simp only [digitValue, digit, Nat.toUInt8, UInt8.toNat_sub, UInt8.toNat_ofNat', Byte.zero,
    UInt8.toNat_ofNat]
  omega

/-- A written number reads back. -/
theorem value_ofNat (number : Nat) : value (ofNat number) = number := by
  induction number using Nat.strongRecOn with
  | _ number ih =>
    rw [ofNat]
    split
    · rename_i small
      have only : digitValue (digit number) = number := digitValue_digit small
      show 10 * 0 + digitValue (digit number) = number
      omega
    · have last : digitValue (digit (number % 10)) = number % 10 := digitValue_digit (by omega)
      have front := ih (number / 10) (by omega)
      show valueAfter 0 (ofNat (number / 10) ++ [digit (number % 10)]) = number
      rw [valueAfter_append]
      show 10 * value (ofNat (number / 10)) + digitValue (digit (number % 10)) = number
      omega

end Numeral

end LispReader
