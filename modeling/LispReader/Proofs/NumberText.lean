import LispReader.Proofs.Lexemes

/-!
# Written numbers read back

The text of an integer is an integer lexeme, the text of a finite float is a float lexeme, and
either stands for the number that was written. For floats this rests on two facts: rounding looks
only at the value of a ratio, and the decimal that is written reads back.
-/

namespace LispReader

namespace Numeral

/-- Small numbers have digits. -/
theorem isDigit_digit {number : Nat} (small : number < 10) :
    Byte.isDigit (digit number) = true := by
  simp only [Byte.isDigit, digit, Nat.toUInt8, Bool.and_eq_true, decide_eq_true_eq,
    UInt8.le_iff_toNat_le, UInt8.toNat_ofNat', UInt8.reduceToNat]
  omega

/-- A run of digits is a numeral unless it is empty. -/
theorem isNumeral_of_all {digits : List UInt8} (nonempty : digits ≠ [])
    (kept : digits.all Byte.isDigit = true) : isNumeral digits = true := by
  rw [isNumeral, kept, List.isEmpty_eq_false_iff.mpr nonempty]
  rfl

/-- Digits after a numeral are part of it. -/
theorem isNumeral_append {first second : List UInt8} (numeral : isNumeral first = true)
    (kept : second.all Byte.isDigit = true) : isNumeral (first ++ second) = true := by
  obtain ⟨digit, others, rfl, -⟩ := Piece.exists_of_isNumeral numeral
  apply isNumeral_of_all (by simp)
  rw [List.all_append, Piece.all_of_isNumeral numeral, kept]
  rfl

/-- A written number is a numeral. -/
theorem isNumeral_ofNat (number : Nat) : isNumeral (ofNat number) = true := by
  induction number using Nat.strongRecOn with
  | _ number ih =>
    rw [ofNat]
    split
    · rename_i small
      exact isNumeral_of_all (by simp) (by simp [isDigit_digit small])
    · have last : Byte.isDigit (digit (number % 10)) = true := isDigit_digit (by omega)
      exact isNumeral_append (ih (number / 10) (by omega)) (by simp [last])

/-- Zeros in front of a numeral change nothing. -/
theorem valueAfter_replicate_zero (count : Nat) (digits : List UInt8) :
    valueAfter 0 (List.replicate count Byte.zero ++ digits) = valueAfter 0 digits := by
  induction count with
  | zero => rfl
  | succ count ih => exact ih

/-- A zero after a numeral stands for ten times as much. -/
theorem valueAfter_zeros (high count : Nat) :
    valueAfter high (List.replicate count Byte.zero) = high * Decimal.powerOfTen count := by
  induction count generalizing high with
  | zero => exact (Nat.mul_one high).symm
  | succ count ih =>
    have step : valueAfter high (List.replicate (count + 1) Byte.zero) =
        valueAfter (10 * high) (List.replicate count Byte.zero) := rfl
    have power : Decimal.powerOfTen (count + 1) = Decimal.powerOfTen count * 10 := rfl
    rw [step, ih, power, Nat.mul_comm 10, Nat.mul_assoc, Nat.mul_comm 10]

/-- The text of an integer is a sign and a numeral. -/
theorem isInteger_ofInt (number : Int) : Lexeme.IsInteger (ofInt number) := by
  cases number with
  | ofNat number => exact ⟨[], ofNat number, rfl, .inl rfl, isNumeral_ofNat number⟩
  | negSucc number =>
    exact ⟨[Byte.minus], ofNat (number + 1), rfl, .inr ⟨_, rfl, rfl⟩, isNumeral_ofNat _⟩

/-- The text of an integer reads back. -/
theorem readInt?_ofInt (number : Int) : readInt? (ofInt number) = some number := by
  cases number with
  | ofNat number =>
    have read := Lexeme.readInt?_append (.inl rfl) (isNumeral_ofNat number)
    rw [value_ofNat] at read
    exact read
  | negSucc number =>
    have read := Lexeme.readInt?_append (.inr ⟨Byte.minus, rfl, rfl⟩)
      (isNumeral_ofNat (number + 1))
    rw [value_ofNat] at read
    exact read

/-- The text of an integer of 64 bits reads back. -/
theorem readInt64?_ofInt (value : Int64) : readInt64? (ofInt value.toInt) = some value := by
  have fits : fitsInt64 value.toInt = true := by
    rw [fitsInt64, Bool.and_eq_true, decide_eq_true_eq, decide_eq_true_eq]
    exact ⟨value.minValue_le_toInt, value.toInt_le⟩
  rw [readInt64?, readInt?_ofInt]
  simp only [fits, if_true, Int64.ofInt_toInt]

end Numeral

namespace Binary64

/-- Rounding looks only at the value of a ratio. -/
theorem roundHalfEven_mul_right (numerator denominator : Nat) {steps : Nat}
    (positive : 0 < steps) :
    roundHalfEven (numerator * steps) (denominator * steps) =
      roundHalfEven numerator denominator := by
  have more : denominator * steps < 2 * (numerator % denominator * steps) ↔
      denominator < 2 * (numerator % denominator) := by
    rw [← Nat.mul_assoc, Nat.mul_lt_mul_right positive]
  have half : denominator * steps = 2 * (numerator % denominator * steps) ↔
      denominator = 2 * (numerator % denominator) := by
    rw [← Nat.mul_assoc, Nat.mul_right_cancel_iff positive]
  simp only [roundHalfEven, Nat.mul_div_mul_right _ _ positive, Nat.mul_mod_mul_right, more, half]

/-- The nearest magnitude depends only on the value of a ratio. -/
theorem nearestCode_mul_right (numerator denominator : Nat) {steps : Nat} (positive : 0 < steps) :
    nearestCode (numerator * steps) (denominator * steps) = nearestCode numerator denominator := by
  have scaled : numerator * steps * unitsPerOne = numerator * unitsPerOne * steps :=
    Nat.mul_right_comm _ _ _
  have shifted (shift : Nat) :
      (denominator * steps) <<< shift = (denominator <<< shift) * steps := by
    rw [Nat.shiftLeft_eq, Nat.shiftLeft_eq, Nat.mul_right_comm]
  simp only [nearestCode, scaled, Nat.mul_div_mul_right _ _ positive, shifted,
    roundHalfEven_mul_right _ _ positive]

end Binary64

namespace FloatStyle

/-- A numeral padded with zeros to at least `places + 1` digits splits into a numeral and one of
`places` digits. -/
theorem exists_split {digits : List UInt8} (numeral : Numeral.isNumeral digits = true)
    {places : Nat} (positive : 0 < places) :
    let padded := List.replicate (places + 1 - digits.length) Byte.zero ++ digits
    Numeral.isNumeral (padded.take (padded.length - places)) = true ∧
      Numeral.isNumeral (padded.drop (padded.length - places)) = true ∧
      (padded.drop (padded.length - places)).length = places := by
  intro padded
  have long : places + 1 ≤ padded.length := by
    simp only [padded, List.length_append, List.length_replicate]
    omega
  have kept : padded.all Byte.isDigit = true := by
    rw [List.all_append, Piece.all_of_isNumeral numeral, Bool.and_true, List.all_replicate]
    split
    · rfl
    · rfl
  rw [← List.take_append_drop (padded.length - places) padded, List.all_append,
    Bool.and_eq_true] at kept
  have count : (padded.drop (padded.length - places)).length = places := by
    rw [List.length_drop]
    omega
  refine ⟨Numeral.isNumeral_of_all ?_ kept.1, Numeral.isNumeral_of_all ?_ kept.2, count⟩
  · rw [← List.length_pos_iff, List.length_take]
    omega
  · rw [← List.length_pos_iff, count]
    exact positive

/-- A decimal in positions is a numeral, a point and a numeral that stand for the decimal. -/
theorem exists_writePositional (decimal : Decimal) :
    ∃ whole fraction, writePositional decimal = whole ++ Byte.point :: fraction ∧
      Numeral.isNumeral whole = true ∧ Numeral.isNumeral fraction = true ∧
      Binary64.nearestCode (Numeral.value (whole ++ fraction))
        (Decimal.powerOfTen fraction.length) = decimal.code := by
  have numeral := Numeral.isNumeral_ofNat decimal.digits
  have value : Numeral.valueAfter 0 (Numeral.ofNat decimal.digits) = decimal.digits :=
    Numeral.value_ofNat decimal.digits
  obtain ⟨digits, exponent⟩ := decimal
  cases exponent with
  | ofNat exponent =>
    refine ⟨Numeral.ofNat digits ++ List.replicate exponent Byte.zero, [Byte.zero], ?_, ?_, rfl, ?_⟩
    · simp only [writePositional, List.append_assoc]
    · apply Numeral.isNumeral_append numeral
      rw [List.all_replicate]
      split <;> rfl
    · have whole : Numeral.value (Numeral.ofNat digits ++ List.replicate exponent Byte.zero ++
          [Byte.zero]) = digits * Decimal.powerOfTen exponent * 10 := by
        rw [Numeral.value, Numeral.valueAfter_append, Numeral.valueAfter_append, value,
          Numeral.valueAfter_zeros]
        exact Nat.mul_comm _ _
      have scale : (-Int.ofNat exponent).toNat = 0 := Int.toNat_neg_natCast exponent
      have ten : Decimal.powerOfTen [Byte.zero].length = Decimal.powerOfTen 0 * 10 := rfl
      rw [whole, ten, Binary64.nearestCode_mul_right _ _ (by decide), Decimal.code, Decimal.ratio,
        scale]
      rfl
  | negSucc exponent =>
    obtain ⟨front, back, count⟩ := exists_split numeral (Nat.succ_pos exponent)
    refine ⟨_, _, rfl, front, back, ?_⟩
    rw [count, List.take_append_drop, Numeral.value, Numeral.valueAfter_replicate_zero, value,
      Decimal.code, Decimal.ratio]
    have whole : digits * Decimal.powerOfTen (Int.negSucc exponent).toNat = digits :=
      Nat.mul_one digits
    rw [whole]
    rfl

/-- A magnitude other than infinity is written in positions in source text. -/
theorem writeMagnitude_source {code : Nat} (finite : code < Binary64.infinityCode) :
    source.writeMagnitude code = writePositional (Decimal.shortest code) := by
  simp only [writeMagnitude, if_pos finite, source, Bool.or_true, if_true]

/-- What is written for a finite number is a float lexeme, and it reads back. -/
theorem read?_write {number : Binary64} (finite : number.isFinite = true) :
    Lexeme.IsFloat (source.write number) ∧
      Binary64.read? (source.write number) = some number := by
  have bounded : number.code < Binary64.infinityCode := of_decide_eq_true finite
  obtain ⟨whole, fraction, written, numeral, numeral', code⟩ :=
    exists_writePositional (Decimal.shortest number.code)
  rw [Decimal.code_shortest bounded] at code
  have signs : Lexeme.Signs (if number.negative then [Byte.minus] else []) := by
    split
    · exact .inr ⟨Byte.minus, rfl, rfl⟩
    · exact .inl rfl
  have sign : ((if number.negative then [Byte.minus] else []) == [Byte.minus]) =
      number.negative := by
    cases number.negative <;> rfl
  rw [write, writeMagnitude_source bounded, written]
  refine ⟨⟨_, whole, fraction, rfl, signs, numeral, numeral'⟩, ?_⟩
  rw [Lexeme.read?_append signs numeral numeral', sign]
  simp only [Binary64.ofRatio, code]

end FloatStyle

end LispReader
