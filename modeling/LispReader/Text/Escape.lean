import LispReader.Byte

/-!
# Contents of string literals

Between the quotation marks of a string literal a backslash gives the byte after it a meaning:
newline and tab have letters, and any other byte stands for itself. Escaping writes the few bytes
that need it in this way, and decoding what escaping wrote gives the contents back.
-/

namespace LispReader

namespace Escape

/-- The byte that a backslash and `letter` stand for. -/
def meaning (letter : UInt8) : UInt8 :=
  if letter == Byte.letterN then Byte.newline
  else if letter == Byte.letterT then Byte.tab
  else letter

/-- The contents that the text between two quotation marks stands for. A backslash with nothing
after it stands for itself. -/
def decode : List UInt8 → List UInt8
  | [] => []
  | [byte] => [byte]
  | byte :: letter :: rest =>
    if byte == Byte.backslash then meaning letter :: decode rest
    else byte :: decode (letter :: rest)

/-- How one byte of the contents is written. -/
def encodeByte (byte : UInt8) : List UInt8 :=
  if byte == Byte.quotationMark then [Byte.backslash, Byte.quotationMark]
  else if byte == Byte.backslash then [Byte.backslash, Byte.backslash]
  else if byte == Byte.newline then [Byte.backslash, Byte.letterN]
  else if byte == Byte.tab then [Byte.backslash, Byte.letterT]
  else [byte]

/-- The text that stands for the contents between two quotation marks. -/
def encode (contents : List UInt8) : List UInt8 := contents.flatMap encodeByte

/-- The contents of a literal: its text without the two quotation marks, decoded. -/
def literalContents (lexeme : List UInt8) : List UInt8 := decode (lexeme.drop 1).dropLast

/-- The literal with the given contents. -/
def literal (contents : List UInt8) : List UInt8 :=
  Byte.quotationMark :: (encode contents ++ [Byte.quotationMark])

/-- A byte that is no backslash stands for itself. -/
theorem decode_cons_of_ne {byte : UInt8} (plain : byte ≠ Byte.backslash) (rest : List UInt8) :
    decode (byte :: rest) = byte :: decode rest := by
  cases rest with
  | nil => rfl
  | cons letter rest => simp [decode, plain]

/-- Decoding undoes the escape of one byte. -/
theorem decode_encodeByte_append (byte : UInt8) (rest : List UInt8) :
    decode (encodeByte byte ++ rest) = byte :: decode rest := by
  unfold encodeByte
  split
  · rename_i mark
    rw [beq_iff_eq.mp mark]
    rfl
  split
  · rename_i mark
    rw [beq_iff_eq.mp mark]
    rfl
  split
  · rename_i mark
    rw [beq_iff_eq.mp mark]
    rfl
  split
  · rename_i mark
    rw [beq_iff_eq.mp mark]
    rfl
  · exact decode_cons_of_ne (by simp_all) rest

/-- Decoding undoes escaping. -/
theorem decode_encode (contents : List UInt8) : decode (encode contents) = contents := by
  induction contents with
  | nil => rfl
  | cons byte rest ih =>
    rw [encode, List.flatMap_cons, decode_encodeByte_append, ← encode, ih]

/-- Decoding makes a text no longer. -/
theorem length_decode_le (input : List UInt8) : (decode input).length ≤ input.length := by
  fun_induction decode input with
  | case1 => exact Nat.le_refl _
  | case2 => exact Nat.le_refl _
  | case3 byte letter rest escape ih =>
    simp only [List.length_cons]
    omega
  | case4 byte letter rest plain ih => exact Nat.succ_le_succ ih

/-- The contents of a literal are no longer than the literal. -/
theorem length_literalContents_le (lexeme : List UInt8) :
    (literalContents lexeme).length ≤ lexeme.length := by
  have decoded := length_decode_le (lexeme.drop 1).dropLast
  simp only [List.length_dropLast, List.length_drop] at decoded
  simp only [literalContents]
  omega

/-- A literal has the contents it was written for. -/
theorem literalContents_literal (contents : List UInt8) :
    literalContents (literal contents) = contents := by
  simp [literalContents, literal, decode_encode]

end Escape

end LispReader
