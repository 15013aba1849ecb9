/-!
# Classes of source bytes

A source is a list of bytes, and tokens are told apart by classes of single bytes. Blanks are the
six ASCII white-space bytes. Symbol bytes are the ASCII letters and digits, a fixed set of
punctuation, and every byte past ASCII, so that names may be written in any UTF-8 text.
-/

namespace LispReader

namespace Byte

/-- The left parenthesis. -/
abbrev leftParen : UInt8 := 0x28

/-- The right parenthesis. -/
abbrev rightParen : UInt8 := 0x29

/-- The apostrophe that quotes a form. -/
abbrev apostrophe : UInt8 := 0x27

/-- The quotation mark around string literals. -/
abbrev quotationMark : UInt8 := 0x22

/-- The escape character of string literals. -/
abbrev backslash : UInt8 := 0x5C

/-- The semicolon that opens a comment. -/
abbrev semicolon : UInt8 := 0x3B

/-- The decimal point. -/
abbrev point : UInt8 := 0x2E

/-- The plus sign. -/
abbrev plus : UInt8 := 0x2B

/-- The minus sign. -/
abbrev minus : UInt8 := 0x2D

/-- The byte that ends a line. -/
abbrev newline : UInt8 := 0x0A

/-- The horizontal tab. -/
abbrev tab : UInt8 := 0x09

/-- The space. -/
abbrev space : UInt8 := 0x20

/-- The digit zero; the others follow it in order. -/
abbrev zero : UInt8 := 0x30

/-- The small letter n, which stands for a newline after a backslash. -/
abbrev letterN : UInt8 := 0x6E

/-- The small letter t, which stands for a tab after a backslash. -/
abbrev letterT : UInt8 := 0x74

/-- Tab, newline, vertical tab, form feed, carriage return and space. -/
def isBlank (byte : UInt8) : Bool := (0x09 ≤ byte && byte ≤ 0x0D) || byte == space

/-- The ASCII digits. -/
def isDigit (byte : UInt8) : Bool := 0x30 ≤ byte && byte ≤ 0x39

/-- The ASCII letters. -/
def isLetter (byte : UInt8) : Bool :=
  (0x41 ≤ byte && byte ≤ 0x5A) || (0x61 ≤ byte && byte ≤ 0x7A)

/-- Plus and minus. -/
def isSign (byte : UInt8) : Bool := byte == plus || byte == minus

/-- The ASCII punctuation that names may hold, listed as `! $ % & * / : < = > ? ^ _ ~ + -`. -/
def symbolPunctuation : List UInt8 :=
  [0x21, 0x24, 0x25, 0x26, 0x2A, 0x2F, 0x3A, 0x3C, 0x3D, 0x3E, 0x3F, 0x5E, 0x5F, 0x7E, plus, minus]

/-- The bytes of names. -/
def isSymbol (byte : UInt8) : Bool :=
  isLetter byte || isDigit byte || symbolPunctuation.contains byte || 0x80 ≤ byte

/-- The bytes that continue a run opened by a stray point. -/
def isPointOrDigit (byte : UInt8) : Bool := byte == point || isDigit byte

/-- Signs may stand in names. -/
theorem isSymbol_of_isSign {byte : UInt8} (sign : isSign byte = true) :
    isSymbol byte = true := by
  simp only [isSign, Bool.or_eq_true, beq_iff_eq] at sign
  rcases sign with rfl | rfl <;> decide

/-- Digits may stand in names. -/
theorem isSymbol_of_isDigit {byte : UInt8} (digit : isDigit byte = true) :
    isSymbol byte = true := by
  simp [isSymbol, digit]

end Byte

end LispReader
