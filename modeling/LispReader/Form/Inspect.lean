import LispReader.Binary64.Decimal
import LispReader.Form
import LispReader.Text.Bytes
import LispReader.Text.Record

/-!
# Forms as records

For inspection a form is written as a record that names its variant, its span and its contents.
Symbols show their number counted from one, and strings show their bytes.
-/

namespace LispReader

namespace Span

/-- A span as a record. -/
def inspect (span : Span) : String :=
  Text.record "Span" [
    Text.field "start" (toString span.start),
    Text.field "end" (toString span.stop)]

end Span

namespace Symbol

/-- A symbol as a record. -/
def inspect (symbol : Symbol) : String :=
  Text.record "SymbolU32" [Text.field "value" (toString (symbol.number + 1))]

end Symbol

namespace Form

/-- A record of the given variant with a span and further fields. -/
def spannedRecord (variant : String) (span : Span) (fields : List String) : String :=
  Text.record variant (Text.field "span" span.inspect :: fields)

mutual

/-- A form as a record. -/
def inspect : Form → String
  | .list span items =>
    spannedRecord "List" span [Text.field "items" (Text.sequence (inspectAll items))]
  | .quote span quoted => spannedRecord "Quote" span [Text.field "quoted" quoted.inspect]
  | .symbol span handle => spannedRecord "Symbol" span [Text.field "symbol" handle.inspect]
  | .integer span value =>
    spannedRecord "Integer" span
      [Text.field "value" (Text.ofAscii (Numeral.ofInt value.toInt))]
  | .float span value =>
    spannedRecord "Float" span
      [Text.field "value" (Text.ofAscii (FloatStyle.inspected.write value))]
  | .string span contents =>
    spannedRecord "String" span
      [Text.field "value" (Text.sequence (contents.map fun byte => toString byte.toNat))]
  | .error span => spannedRecord "Error" span []

/-- Forms as records, in order. -/
def inspectAll : List Form → List String
  | [] => []
  | form :: rest => form.inspect :: inspectAll rest

end

end Form

end LispReader
