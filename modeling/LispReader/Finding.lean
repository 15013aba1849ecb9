import LispReader.Diagnostic
import LispReader.Text.Quoted

/-!
# Findings

Trouble that does not stop a read is a finding: a cause and the span it concerns. Lexical causes
are found while the source is cut into tokens, conversion causes while a token becomes a form, and
every finding is reported as a diagnostic of the highest severity.
-/

namespace LispReader

/-- Why a piece of the source cannot be read as what it looks like. -/
inductive Cause where
  /-- No quotation mark closes the string. -/
  | unterminatedString
  /-- Symbol bytes are glued to a number, or points and digits to a stray point. -/
  | malformedNumber
  /-- A point stands alone. -/
  | lonePoint
  /-- No token starts with the byte. -/
  | strayByte (byte : UInt8)
  /-- The bytes of a name are not UTF-8 text. -/
  | symbolNotUtf8
  /-- An integer literal has no 64-bit value. -/
  | integerOutOfRange
  /-- A float literal does not follow the grammar of decimals. -/
  | floatNotDecimal
  deriving DecidableEq, Inhabited

namespace Cause

/-- Whether the cause is found while the source is cut into tokens. -/
def isLexical : Cause → Bool
  | .unterminatedString | .malformedNumber | .lonePoint | .strayByte _ => true
  | .symbolNotUtf8 | .integerOutOfRange | .floatNotDecimal => false

/-- A byte as a marked hexadecimal numeral of two digits. -/
def byteNumeral (byte : UInt8) : String :=
  (if byte < 16 then "0x0" else "0x") ++ Text.hexadecimal byte.toNat

/-- The words printed for a cause. -/
def message : Cause → String
  | .unterminatedString => "unterminated string literal"
  | .malformedNumber => "malformed numeric literal"
  | .lonePoint => "unexpected \x60.\x60"
  | .strayByte byte =>
    "unexpected byte " ++ byteNumeral byte ++ " (" ++ Text.quotedChar (Char.ofNat byte.toNat) ++ ")"
  | .symbolNotUtf8 => "symbol is not valid UTF-8"
  | .integerOutOfRange => "integer literal out of range"
  | .floatNotDecimal => "invalid float literal"

end Cause

/-- A cause and the part of the source it concerns. -/
structure Finding where
  cause : Cause
  span : Span
  deriving DecidableEq, Inhabited

namespace Finding

/-- A finding as it is reported. -/
def diagnostic (finding : Finding) : Diagnostic := .error finding.span finding.cause.message

/-- Findings are errors. -/
@[simp] theorem severity_diagnostic (finding : Finding) :
    finding.diagnostic.severity = .error := rfl

end Finding

end LispReader
