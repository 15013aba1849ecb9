import LispReader.Binary64.Decimal
import LispReader.Form
import LispReader.Text.Bytes
import LispReader.Text.Escape
import LispReader.Text.Numeral
import LispReader.Text.Utf8

/-!
# Forms as source text

Forms are written as a source that reads as the same forms wherever one exists: one space between
the items of a list, names looked up in a symbol table, floats always with a point, and strings as
repaired text with the few bytes escaped that need it.
-/

namespace LispReader

namespace Form

/-- What is written for a symbol that the table does not know. -/
def unknownSymbol : List UInt8 := Text.bytes "<unknown symbol>"

/-- What is written for an unreadable part of a source. -/
def errorMark : List UInt8 := Text.bytes "#<error>"

/-- The name of a symbol as it is written. -/
def renderSymbol (table : SymbolTable) (symbol : Symbol) : List UInt8 :=
  match table.resolve? symbol with
  | some name => Text.bytes name
  | none => unknownSymbol

mutual

/-- The source text of a form. -/
def render (table : SymbolTable) : Form → List UInt8
  | .list _ items => Byte.leftParen :: (renderItems table items ++ [Byte.rightParen])
  | .quote _ quoted => Byte.apostrophe :: quoted.render table
  | .symbol _ handle => renderSymbol table handle
  | .integer _ value => Numeral.ofInt value.toInt
  | .float _ value => FloatStyle.source.write value
  | .string _ contents => Escape.literal (Utf8.repair contents)
  | .error _ => errorMark

/-- The items of a list with a space between neighbours. -/
def renderItems (table : SymbolTable) : List Form → List UInt8
  | [] => []
  | item :: rest => item.render table ++ renderRest table rest

/-- The items after the first, each with a space in front. -/
def renderRest (table : SymbolTable) : List Form → List UInt8
  | [] => []
  | item :: rest => Byte.space :: (item.render table ++ renderRest table rest)

end

end Form

namespace Tree

/-- The source text of a tree, one top-level form per line. -/
def render (table : SymbolTable) (tree : Tree) : List UInt8 :=
  tree.forms.flatMap fun form => form.render table ++ [Byte.newline]

end Tree

end LispReader
