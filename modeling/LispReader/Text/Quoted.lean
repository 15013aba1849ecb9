import LispReader.Text.DefaultIgnorable
import LispReader.Text.ExtendingMark
import LispReader.Text.Unprintable

/-!
# Quoted text

Messages show foreign text between quotation marks in a form that is printable and unambiguous. The
delimiter and the backslash are escaped, the common controls have names, and a character that would
not show on its own, or would attach to its neighbour, is written as its hexadecimal code point.
-/

namespace LispReader

namespace Text

/-- The lower-case hexadecimal numeral of a number. -/
def hexadecimal (value : Nat) : String := String.ofList (Nat.toDigits 16 value)

/-- Whether a character is shown by its code point. -/
def isHidden (char : Char) : Bool :=
  CodePointSet.extendingMark.contains char || CodePointSet.defaultIgnorable.contains char ||
    CodePointSet.unprintable.contains char

/-- How a character is written between two copies of `delimiter`. -/
def escapedChar (delimiter char : Char) : String :=
  if char = '\x00' then "\\0"
  else if char = '\t' then "\\t"
  else if char = '\r' then "\\r"
  else if char = '\n' then "\\n"
  else if char = '\\' then "\\\\"
  else if char = delimiter then String.ofList ['\\', delimiter]
  else if isHidden char then "\\u\x7b" ++ hexadecimal char.toNat ++ "\x7d"
  else String.singleton char

/-- A text between quotation marks. -/
def quoted (text : String) : String :=
  "\"" ++ String.join (text.toList.map (escapedChar '"')) ++ "\""

/-- A character between apostrophes. -/
def quotedChar (char : Char) : String := "'" ++ escapedChar '\x27' char ++ "'"

end Text

end LispReader
