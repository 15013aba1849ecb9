import LispReader.Binary64.Decimal
import LispReader.Piece
import LispReader.Proofs.Phrase
import LispReader.Proofs.TokenStream

/-!
# Lexemes of leaves

Names and numbers are told apart by their own bytes: a number is an optional sign, digits and an
optional fraction, and a name is any run of symbol bytes that does not begin like a number. A source
that begins like a number begins with one that goes on as long as it can, and the lexeme of an
integer or a float stands for a number.
-/

namespace LispReader

namespace Byte

/-- Whether bytes begin with a digit, or with a sign and a digit. -/
def opensNumber : List UInt8 → Bool
  | [] => false
  | [byte] => isDigit byte
  | byte :: next :: _ => isDigit byte || (isSign byte && isDigit next)

/-- Whether bytes can be the name of a symbol. -/
def isName (bytes : List UInt8) : Bool :=
  !bytes.isEmpty && bytes.all isSymbol && !opensNumber bytes

/-- Bytes that continue no name and no number that stands before them. -/
def Delimits (rest : List UInt8) : Prop :=
  ∀ byte, rest.head? = some byte → isSymbol byte = false ∧ byte ≠ point

/-- There are six blanks. -/
theorem eq_of_isBlank {byte : UInt8} (blank : isBlank byte = true) :
    byte = tab ∨ byte = newline ∨ byte = 0x0B ∨ byte = 0x0C ∨ byte = 0x0D ∨ byte = space := by
  simp only [isBlank, Bool.or_eq_true, Bool.and_eq_true, decide_eq_true_eq, beq_iff_eq,
    UInt8.le_iff_toNat_le, ← UInt8.toNat_inj, UInt8.reduceToNat, tab, newline, space] at blank ⊢
  omega

/-- No name holds a blank. -/
theorem isSymbol_of_isBlank {byte : UInt8} (blank : isBlank byte = true) :
    isSymbol byte = false := by
  rcases eq_of_isBlank blank with rfl | rfl | rfl | rfl | rfl | rfl <;> rfl

/-- No sign is a digit. -/
theorem isSign_of_isDigit {byte : UInt8} (digit : isDigit byte = true) : isSign byte = false := by
  cases sign : isSign byte with
  | false => rfl
  | true =>
    simp only [isSign, Bool.or_eq_true, beq_iff_eq] at sign
    rcases sign with rfl | rfl <;> cases digit

/-- A byte that may not stand in a name is no digit. -/
theorem isDigit_of_isSymbol {byte : UInt8} (other : isSymbol byte = false) :
    isDigit byte = false := by
  cases digit : isDigit byte with
  | false => rfl
  | true => rw [isSymbol_of_isDigit digit] at other; cases other

end Byte

namespace Lexeme

/-- Whether no byte of a class comes next. -/
def Ends (keep : UInt8 → Bool) (rest : List UInt8) : Prop :=
  ∀ byte, rest.head? = some byte → keep byte = false

end Lexeme

/-! ## Numbers in front of a source -/

namespace Piece

open Lexeme

/-- No byte is kept before one that is not kept. -/
theorem takeWhile_of_stop {keep : UInt8 → Bool} {rest : List UInt8} (stop : Ends keep rest) :
    rest.takeWhile keep = [] := by
  cases rest with
  | nil => rfl
  | cons byte others => simp [stop byte rfl]

/-- A run of kept bytes ends before the first that is not kept. -/
theorem takeWhile_append_of_stop {keep : UInt8 → Bool} {run rest : List UInt8}
    (kept : run.all keep = true) (stop : Ends keep rest) : (run ++ rest).takeWhile keep = run := by
  rw [List.takeWhile_append_of_pos (List.all_eq_true.mp kept), takeWhile_of_stop stop,
    List.append_nil]

/-- A source is its longest kept run and what stops it. -/
theorem exists_takeWhile (keep : UInt8 → Bool) (input : List UInt8) :
    ∃ rest, input = input.takeWhile keep ++ rest ∧ (input.takeWhile keep).all keep = true ∧
      Ends keep rest := by
  refine ⟨input.dropWhile keep, List.takeWhile_append_dropWhile.symm, List.all_takeWhile, ?_⟩
  intro byte first
  have := List.head?_dropWhile_not keep input
  rw [first] at this
  exact this

end Piece

namespace Lexeme

/-- An optional sign. -/
def Signs (bytes : List UInt8) : Prop :=
  bytes = [] ∨ ∃ sign, bytes = [sign] ∧ Byte.isSign sign = true

/-- An optional sign and digits. -/
def IsInteger (lexeme : List UInt8) : Prop :=
  ∃ sign whole, lexeme = sign ++ whole ∧ Signs sign ∧ Numeral.isNumeral whole = true

/-- An optional sign, digits, a point, and digits. -/
def IsFloat (lexeme : List UInt8) : Prop :=
  ∃ sign whole fraction, lexeme = sign ++ (whole ++ Byte.point :: fraction) ∧ Signs sign ∧
    Numeral.isNumeral whole = true ∧ Numeral.isNumeral fraction = true

/-- Whether a point and a digit come next. -/
def OpensFraction (rest : List UInt8) : Prop :=
  ∃ digit after, rest = Byte.point :: digit :: after ∧ Byte.isDigit digit = true

/-- An integer or a float that goes on as long as it can. -/
def IsLongest (number rest : List UInt8) : Prop :=
  (IsInteger number ∧ Ends Byte.isDigit rest ∧ ¬ OpensFraction rest) ∨
    (IsFloat number ∧ Ends Byte.isDigit rest)

end Lexeme

namespace LeafKind

/-- What the bytes of a leaf look like. -/
def Admits (kind : LeafKind) (lexeme : List UInt8) : Prop :=
  match kind with
  | .atom => Byte.isName lexeme = true
  | .integer => Lexeme.IsInteger lexeme
  | .float => Lexeme.IsFloat lexeme
  | .string | .error => True

end LeafKind

namespace Piece

open Lexeme

/-- A numeral is a run of digits. -/
theorem all_of_isNumeral {digits : List UInt8} (numeral : Numeral.isNumeral digits = true) :
    digits.all Byte.isDigit = true := (Bool.and_eq_true _ _ ▸ numeral).2

/-- A numeral has a first digit. -/
theorem exists_of_isNumeral {digits : List UInt8} (numeral : Numeral.isNumeral digits = true) :
    ∃ first others, digits = first :: others ∧ Byte.isDigit first = true := by
  cases digits with
  | nil => cases numeral
  | cons first others =>
    have kept := all_of_isNumeral numeral
    rw [List.all_cons, Bool.and_eq_true] at kept
    exact ⟨first, others, rfl, kept.1⟩

/-- The sign in front of a numeral is all of the sign. -/
theorem signLength_append {sign whole : List UInt8} (signs : Signs sign)
    (numeral : Numeral.isNumeral whole = true) (rest : List UInt8) :
    signLength (sign ++ (whole ++ rest)) = sign.length := by
  obtain ⟨first, others, rfl, digit⟩ := exists_of_isNumeral numeral
  rcases signs with rfl | ⟨byte, rfl, isSign⟩
  · simp [signLength, Byte.isSign_of_isDigit digit]
  · simp [signLength, isSign]

/-- A sign and a numeral that no digit follows are in front of their fraction. -/
theorem numberLength?_append {sign whole rest : List UInt8} (signs : Signs sign)
    (numeral : Numeral.isNumeral whole = true) (stop : Ends Byte.isDigit rest) :
    numberLength? (sign ++ (whole ++ rest)) =
      some (sign.length + whole.length + fractionLength rest) := by
  have run := takeWhile_append_of_stop (all_of_isNumeral numeral) stop
  have front : (sign ++ (whole ++ rest)).drop (sign.length + whole.length) = rest := by
    rw [← List.append_assoc, ← List.length_append, List.drop_left]
  simp only [numberLength?, signLength_append signs numeral, List.drop_left, run]
  obtain ⟨first, others, rfl, -⟩ := exists_of_isNumeral numeral
  simp only [front]

/-- A source starts with a number only if it starts with a sign and a numeral. -/
theorem exists_of_numberLength? {input : List UInt8} {length : Nat}
    (number : numberLength? input = some length) :
    ∃ sign whole rest, input = sign ++ (whole ++ rest) ∧ Signs sign ∧
      Numeral.isNumeral whole = true ∧ Ends Byte.isDigit rest := by
  obtain ⟨rest, parts, kept, stop⟩ :=
    exists_takeWhile Byte.isDigit (input.drop (signLength input))
  refine ⟨input.take (signLength input),
    (input.drop (signLength input)).takeWhile Byte.isDigit, rest, ?_, ?_, ?_, stop⟩
  · rw [← parts, List.take_append_drop]
  · cases input with
    | nil => exact .inl rfl
    | cons byte others =>
      cases sign : Byte.isSign byte with
      | false => exact .inl (by simp [signLength, sign])
      | true => exact .inr ⟨byte, by simp [signLength, sign], sign⟩
  · simp only [numberLength?] at number
    split at number
    · cases number
    · rename_i digits first others found
      rw [found] at kept ⊢
      simp [Numeral.isNumeral, kept]

/-- A source starts with a number if and only if its first bytes are a sign and a digit, or a
digit. -/
theorem numberLength?_eq_none {input : List UInt8} :
    numberLength? input = none ↔ Byte.opensNumber input = false := by
  match input with
  | [] => exact ⟨fun _ => rfl, fun _ => rfl⟩
  | [byte] =>
    cases digit : Byte.isDigit byte with
    | false =>
      cases sign : Byte.isSign byte <;>
        simp [numberLength?, signLength, Byte.opensNumber, digit, sign]
    | true =>
      simp [numberLength?, signLength, Byte.opensNumber, digit, Byte.isSign_of_isDigit digit]
  | byte :: next :: rest =>
    cases digit : Byte.isDigit byte with
    | true =>
      simp [numberLength?, signLength, Byte.opensNumber, digit, Byte.isSign_of_isDigit digit]
    | false =>
      cases sign : Byte.isSign byte <;> cases digit' : Byte.isDigit next <;>
        simp [numberLength?, signLength, Byte.opensNumber, digit, digit', sign]

/-- A point and the digits after it are a fraction. -/
theorem fractionLength_append {fraction rest : List UInt8}
    (numeral : Numeral.isNumeral fraction = true) (stop : Ends Byte.isDigit rest) :
    fractionLength (Byte.point :: (fraction ++ rest)) = fraction.length + 1 := by
  have run := takeWhile_append_of_stop (all_of_isNumeral numeral) stop
  obtain ⟨first, others, rfl, -⟩ := exists_of_isNumeral numeral
  simp only [fractionLength, beq_self_eq_true, if_true, run]

/-- What follows a whole part is no fraction exactly if it does not open one. -/
theorem fractionLength_eq_zero {rest : List UInt8} :
    fractionLength rest = 0 ↔ ¬ OpensFraction rest := by
  constructor
  · rintro none_left ⟨digit, after, rfl, isDigit⟩
    simp [fractionLength, isDigit] at none_left
  · intro plain
    rcases rest with _ | ⟨byte, _ | ⟨next, after⟩⟩
    · rfl
    · simp [fractionLength]
    · by_cases point : byte = Byte.point
      · cases digit : Byte.isDigit next with
        | true => exact absurd ⟨next, after, by rw [point], digit⟩ plain
        | false => simp [fractionLength, digit]
      · simp [fractionLength, point]

/-- A point and a digit in front are a point and the longest numeral after it. -/
theorem exists_of_opensFraction {rest : List UInt8} (opens : OpensFraction rest) :
    ∃ fraction after, rest = Byte.point :: (fraction ++ after) ∧
      Numeral.isNumeral fraction = true ∧ Ends Byte.isDigit after := by
  obtain ⟨digit, others, rfl, isDigit⟩ := opens
  obtain ⟨after, parts, kept, stop⟩ := exists_takeWhile Byte.isDigit (digit :: others)
  refine ⟨_, after, by rw [← parts], ?_, stop⟩
  rw [Numeral.isNumeral, kept, List.takeWhile_cons_of_pos isDigit]
  rfl

/-- A number that goes on as long as it can is the number in front. -/
theorem numberLength?_of_isLongest {number rest : List UInt8} (longest : IsLongest number rest) :
    numberLength? (number ++ rest) = some number.length := by
  rcases longest with ⟨⟨sign, whole, rfl, signs, numeral⟩, stop, plain⟩ |
    ⟨⟨sign, whole, fraction, rfl, signs, numeral, numeral'⟩, stop⟩
  · rw [List.append_assoc, numberLength?_append signs numeral stop,
      fractionLength_eq_zero.mpr plain, List.length_append]
    rfl
  · have pointed : Ends Byte.isDigit (Byte.point :: (fraction ++ rest)) := by
      intro byte first
      cases first
      rfl
    simp only [List.append_assoc, List.cons_append]
    rw [numberLength?_append signs numeral pointed, fractionLength_append numeral' stop]
    simp only [List.length_append, List.length_cons, Nat.add_assoc]

/-- A source that starts with a number starts with one that goes on as long as it can. -/
theorem exists_isLongest {input : List UInt8} {length : Nat}
    (number : numberLength? input = some length) :
    ∃ number rest, input = number ++ rest ∧ IsLongest number rest := by
  obtain ⟨sign, whole, rest, rfl, signs, numeral, stop⟩ := exists_of_numberLength? number
  by_cases opens : OpensFraction rest
  · obtain ⟨fraction, after, rfl, numeral', stop'⟩ := exists_of_opensFraction opens
    refine ⟨sign ++ (whole ++ Byte.point :: fraction), after, ?_,
      .inr ⟨⟨sign, whole, fraction, rfl, signs, numeral, numeral'⟩, stop'⟩⟩
    simp only [List.append_assoc, List.cons_append]
  · exact ⟨sign ++ whole, rest, (List.append_assoc _ _ _).symm,
      .inl ⟨⟨sign, whole, rfl, signs, numeral⟩, stop, opens⟩⟩

/-- Digits hold no point. -/
theorem contains_point_of_isNumeral {digits : List UInt8}
    (numeral : Numeral.isNumeral digits = true) : digits.contains Byte.point = false := by
  have kept := List.all_eq_true.mp (all_of_isNumeral numeral)
  rw [Bool.eq_false_iff, ne_eq, List.contains_iff_mem]
  intro member
  cases kept _ member

/-- A sign is no point. -/
theorem contains_point_of_signs {sign : List UInt8} (signs : Signs sign) :
    sign.contains Byte.point = false := by
  rcases signs with rfl | ⟨byte, rfl, isSign⟩
  · rfl
  · simp only [Byte.isSign, Bool.or_eq_true, beq_iff_eq] at isSign
    rcases isSign with rfl | rfl <;> rfl

/-- An integer holds no point. -/
theorem contains_point_of_isInteger {lexeme : List UInt8} (shaped : IsInteger lexeme) :
    lexeme.contains Byte.point = false := by
  obtain ⟨sign, whole, rfl, signs, numeral⟩ := shaped
  rw [List.contains_append, contains_point_of_signs signs, contains_point_of_isNumeral numeral]
  rfl

/-- A float holds a point. -/
theorem contains_point_of_isFloat {lexeme : List UInt8} (shaped : IsFloat lexeme) :
    lexeme.contains Byte.point = true := by
  obtain ⟨sign, whole, fraction, rfl, -⟩ := shaped
  simp

end Piece

/-! ## What numbers stand for -/

namespace Lexeme

/-- A digit is no minus sign. -/
theorem ne_minus_of_isDigit {byte : UInt8} (digit : Byte.isDigit byte = true) :
    (byte == Byte.minus) = false := by
  rw [beq_eq_false_iff_ne]
  rintro rfl
  cases digit

/-- A sign and a numeral are read as the number of the numeral, negated after a minus. -/
theorem readInt?_append {sign whole : List UInt8} (signs : Signs sign)
    (numeral : Numeral.isNumeral whole = true) :
    Numeral.readInt? (sign ++ whole) =
      some (if sign = [Byte.minus] then -(Numeral.value whole : Int) else Numeral.value whole) := by
  rcases signs with rfl | ⟨byte, rfl, isSign⟩
  · obtain ⟨first, others, rfl, digit⟩ := Piece.exists_of_isNumeral numeral
    simp [Numeral.readInt?, Byte.isSign_of_isDigit digit, numeral, ne_minus_of_isDigit digit]
  · simp [Numeral.readInt?, isSign, numeral]

/-- An integer lexeme stands for an integer. -/
theorem IsInteger.exists_readInt? {lexeme : List UInt8} (shaped : IsInteger lexeme) :
    ∃ number, Numeral.readInt? lexeme = some number := by
  obtain ⟨sign, whole, rfl, signs, numeral⟩ := shaped
  exact ⟨_, readInt?_append signs numeral⟩

/-- A sign, a numeral, a point and a numeral are read as the float nearest to what they say. -/
theorem read?_append {sign whole fraction : List UInt8} (signs : Signs sign)
    (numeral : Numeral.isNumeral whole = true) (numeral' : Numeral.isNumeral fraction = true) :
    Binary64.read? (sign ++ (whole ++ Byte.point :: fraction)) =
      some (.ofRatio (sign == [Byte.minus]) (Numeral.value (whole ++ fraction))
        (Decimal.powerOfTen fraction.length)) := by
  have pointed : Ends Byte.isDigit (Byte.point :: fraction) := by
    intro byte first
    cases first
    rfl
  have run := Piece.takeWhile_append_of_stop (Piece.all_of_isNumeral numeral) pointed
  rcases signs with rfl | ⟨byte, rfl, isSign⟩
  · obtain ⟨first, others, rfl, digit⟩ := Piece.exists_of_isNumeral numeral
    rw [List.nil_append]
    rw [List.cons_append] at run ⊢
    simp only [Binary64.read?, Byte.isSign_of_isDigit digit, Bool.false_eq_true, if_false, run,
      ne_minus_of_isDigit digit, numeral]
    rw [← List.cons_append, List.drop_left]
    simp [numeral']
  · simp [Binary64.read?, isSign, run, numeral, numeral']

/-- A float lexeme stands for a float. -/
theorem IsFloat.exists_read? {lexeme : List UInt8} (shaped : IsFloat lexeme) :
    ∃ number, Binary64.read? lexeme = some number := by
  obtain ⟨sign, whole, fraction, rfl, signs, numeral, numeral'⟩ := shaped
  exact ⟨_, read?_append signs numeral numeral'⟩

end Lexeme

end LispReader
