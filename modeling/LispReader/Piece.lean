import LispReader.Byte
import LispReader.Finding
import LispReader.Token

/-!
# The pieces of a source

A nonempty source begins with exactly one piece: trivia, which no token covers, a token, or a
malformed run that becomes an error token with a cause. The tests are made in a fixed order and
every run is as long as it can be, so the first piece and its length depend on the source alone.
-/

namespace LispReader

/-- What a source may begin with. -/
inductive Piece where
  /-- Blanks or a comment. -/
  | trivia
  /-- A well-formed token. -/
  | token (kind : TokenKind)
  /-- A run that is read as an error token. -/
  | malformed (cause : Cause)
  deriving DecidableEq, Inhabited

namespace Piece

/-- The kind of the token that a piece becomes; trivia becomes none. -/
def kind? : Piece → Option TokenKind
  | .trivia => none
  | .token kind => some kind
  | .malformed _ => some .error

/-- What is found wrong with a piece that covers `span`. -/
def findings (piece : Piece) (span : Span) : List Finding :=
  match piece with
  | .malformed cause => [⟨cause, span⟩]
  | .trivia | .token _ => []

/-! ## Lengths of runs -/

/-- The number of bytes up to and including the first quotation mark that no backslash escapes. A
backslash escapes the byte after it, whatever that is. -/
def closingLength? : List UInt8 → Option Nat
  | [] => none
  | byte :: rest =>
    if byte == Byte.quotationMark then some 1
    else if byte == Byte.backslash then
      match rest with
      | [] => none
      | _ :: after => (closingLength? after).map (· + 2)
    else (closingLength? rest).map (· + 1)

/-- The length of a point with at least one digit after it, at the front of `input`, or zero. -/
def fractionLength : List UInt8 → Nat
  | [] => 0
  | byte :: rest =>
    if byte == Byte.point then
      match rest.takeWhile Byte.isDigit with
      | [] => 0
      | digits@(_ :: _) => digits.length + 1
    else 0

/-- One if a sign stands at the front, and zero otherwise. -/
def signLength : List UInt8 → Nat
  | [] => 0
  | byte :: _ => if Byte.isSign byte then 1 else 0

/-- The length of the number at the front: an optional sign, digits, and an optional fraction. -/
def numberLength? (input : List UInt8) : Option Nat :=
  let sign := signLength input
  match (input.drop sign).takeWhile Byte.isDigit with
  | [] => none
  | digits@(_ :: _) =>
    let whole := sign + digits.length
    some (whole + fractionLength (input.drop whole))

/-! ## The first piece -/

/-- The piece that starts with a number of `length` bytes. Symbol bytes right after it spoil it. -/
def ofNumber (input : List UInt8) (length : Nat) : Piece × Nat :=
  match (input.drop length).takeWhile Byte.isSymbol with
  | [] =>
    (.token (if (input.take length).contains Byte.point then .float else .integer), length)
  | tail@(_ :: _) => (.malformed .malformedNumber, length + tail.length)

/-- The piece that starts with `byte`, which opens no parenthesis, quote, trivia, string or
number. -/
def ofOther (byte : UInt8) (rest : List UInt8) : Piece × Nat :=
  if Byte.isSymbol byte then (.token .atom, (rest.takeWhile Byte.isSymbol).length + 1)
  else if byte == Byte.point then
    match rest.takeWhile Byte.isPointOrDigit with
    | [] => (.malformed .lonePoint, 1)
    | tail@(_ :: _) => (.malformed .malformedNumber, tail.length + 1)
  else (.malformed (.strayByte byte), 1)

/-- The first piece of a source and its length in bytes. -/
def leading : List UInt8 → Piece × Nat
  | [] => (.trivia, 0)
  | byte :: rest =>
    if byte == Byte.leftParen then (.token .leftParen, 1)
    else if byte == Byte.rightParen then (.token .rightParen, 1)
    else if byte == Byte.apostrophe then (.token .quote, 1)
    else if Byte.isBlank byte then (.trivia, (rest.takeWhile Byte.isBlank).length + 1)
    else if byte == Byte.semicolon then
      (.trivia, (rest.takeWhile (· != Byte.newline)).length + 1)
    else if byte == Byte.quotationMark then
      match closingLength? rest with
      | some length => (.token .string, length + 1)
      | none => (.malformed .unterminatedString, rest.length + 1)
    else
      match numberLength? (byte :: rest) with
      | some length => ofNumber (byte :: rest) length
      | none => ofOther byte rest

/-! ## Progress -/

/-- A number has at least one byte. -/
theorem numberLength?_pos {input : List UInt8} {length : Nat}
    (number : numberLength? input = some length) : 0 < length := by
  simp only [numberLength?] at number
  split at number
  · simp at number
  · rename_i digits first rest found
    simp only [Option.some.injEq, List.length_cons] at number
    omega

/-- The piece that starts with a nonempty number is nonempty. -/
theorem length_pos_ofNumber {input : List UInt8} {length : Nat} (positive : 0 < length) :
    0 < (ofNumber input length).2 := by
  unfold ofNumber
  split
  · exact positive
  · exact Nat.add_pos_left positive _

/-- The piece that starts with any other byte is nonempty. -/
theorem length_pos_ofOther (byte : UInt8) (rest : List UInt8) : 0 < (ofOther byte rest).2 := by
  unfold ofOther
  repeat' split
  all_goals simp

/-- The first piece of a nonempty source is nonempty. -/
theorem length_pos_leading {input : List UInt8} (nonempty : input ≠ []) :
    0 < (leading input).2 := by
  cases input with
  | nil => exact absurd rfl nonempty
  | cons byte rest =>
    simp only [leading]
    repeat' split
    any_goals exact Nat.succ_pos _
    · exact length_pos_ofNumber (numberLength?_pos (by assumption))
    · exact length_pos_ofOther byte rest

/-! ## Pieces end inside the source -/

/-- A run is no longer than what it is a run of. -/
theorem length_takeWhile_le {α : Type} (keep : α → Bool) (input : List α) :
    (input.takeWhile keep).length ≤ input.length :=
  (List.takeWhile_sublist keep).length_le

/-- The closing quotation mark is one of the bytes. -/
theorem closingLength?_le {input : List UInt8} {length : Nat}
    (closed : closingLength? input = some length) : length ≤ input.length := by
  fun_induction closingLength? input generalizing length with
  | case1 => cases closed
  | case2 byte rest =>
    cases closed
    simp
  | case3 => cases closed
  | case4 byte plain escape letter after ih =>
    obtain ⟨inner, found, rfl⟩ := Option.map_eq_some_iff.mp closed
    have := ih found
    simp only [List.length_cons]
    omega
  | case5 byte rest plain ordinary ih =>
    obtain ⟨inner, found, rfl⟩ := Option.map_eq_some_iff.mp closed
    have := ih found
    simp only [List.length_cons]
    omega

/-- A fraction is one of the bytes. -/
theorem fractionLength_le (input : List UInt8) : fractionLength input ≤ input.length := by
  cases input with
  | nil => exact Nat.le_refl 0
  | cons byte rest =>
    have bound := length_takeWhile_le Byte.isDigit rest
    simp only [fractionLength]
    split
    · split
      · exact Nat.zero_le _
      · rename_i digits first others found
        rw [found] at bound
        simpa using bound
    · exact Nat.zero_le _

/-- A number ends inside the source. -/
theorem numberLength?_le {input : List UInt8} {length : Nat}
    (number : numberLength? input = some length) : length ≤ input.length := by
  have bound := length_takeWhile_le Byte.isDigit (input.drop (signLength input))
  simp only [numberLength?] at number
  split at number
  · cases number
  · rename_i digits first rest found
    cases number
    have fraction := fractionLength_le (input.drop (signLength input + (first :: rest).length))
    rw [found] at bound
    simp only [List.length_drop, List.length_cons] at bound fraction ⊢
    omega

/-- The piece that starts with a number ends inside the source. -/
theorem length_ofNumber_le {input : List UInt8} {length : Nat} (inside : length ≤ input.length) :
    (ofNumber input length).2 ≤ input.length := by
  have bound := length_takeWhile_le Byte.isSymbol (input.drop length)
  unfold ofNumber
  split
  · exact inside
  · rename_i tail first rest found
    rw [found, List.length_drop] at bound
    show length + (first :: rest).length ≤ input.length
    omega

/-- The piece that starts with any other byte ends inside the source. -/
theorem length_ofOther_le (byte : UInt8) (rest : List UInt8) :
    (ofOther byte rest).2 ≤ rest.length + 1 := by
  have symbols := length_takeWhile_le Byte.isSymbol rest
  have points := length_takeWhile_le Byte.isPointOrDigit rest
  unfold ofOther
  split
  · exact Nat.succ_le_succ symbols
  · split
    · split
      · exact Nat.succ_le_succ (Nat.zero_le _)
      · rename_i tail first others found
        rw [found] at points
        exact Nat.succ_le_succ points
    · exact Nat.succ_le_succ (Nat.zero_le _)

/-- The first piece ends inside the source. -/
theorem length_leading_le (input : List UInt8) : (leading input).2 ≤ input.length := by
  cases input with
  | nil => exact Nat.le_refl 0
  | cons byte rest =>
    have blanks := length_takeWhile_le Byte.isBlank rest
    have comment := length_takeWhile_le (· != Byte.newline) rest
    simp only [leading, List.length_cons]
    repeat' split
    any_goals exact Nat.succ_le_succ (Nat.zero_le _)
    · exact Nat.succ_le_succ blanks
    · exact Nat.succ_le_succ comment
    · rename_i length closed
      exact Nat.succ_le_succ (closingLength?_le closed)
    · exact Nat.le_refl _
    · rename_i length number
      exact length_ofNumber_le (numberLength?_le number)
    · exact length_ofOther_le byte rest

/-- What is left after the first piece is shorter. -/
theorem drop_leading_length_lt {input : List UInt8} (nonempty : input ≠ []) :
    (input.drop (leading input).2).length < input.length := by
  have positive := length_pos_leading nonempty
  have := List.length_pos_iff.mpr nonempty
  simp only [List.length_drop]
  omega

end Piece

end LispReader
