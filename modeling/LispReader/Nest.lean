import LispReader.Binary64.Decimal
import LispReader.Finding
import LispReader.Form
import LispReader.ReadError
import LispReader.Text.Bytes
import LispReader.Text.Escape
import LispReader.Token

/-!
# Building forms from tokens

Tokens are taken one by one by a nest: the lists and quotes that are still open, innermost first,
with the forms already complete. A complete form closes every quote that waits for it and then
joins the innermost list. Each form is paid for in an arena, its contents before itself, and what
was paid for, interned or found stays so when the read fails later on.
-/

namespace LispReader

/-- What a read works on: the arena that pays for forms, the names interned, and the findings in
the order in which they were made. -/
structure Workspace where
  arena : Arena
  symbols : SymbolTable
  findings : List Finding

/-- A step of a read, which keeps its effects on the workspace when it fails. -/
abbrev Build := EStateM ReadError Workspace

namespace Build

/-- The bytes of a form in the arena. -/
def formBytes : UInt64 := 32

/-- The bytes of a reference to a form in the arena. -/
def referenceBytes : Nat := 8

/-- The alignment of forms and references. -/
def wordAlignment : UInt64 := 8

/-- Pays for `size` bytes at a multiple of `align`. -/
def reserve (size align : UInt64) : Build Unit := fun workspace =>
  match workspace.arena.allocate size align with
  | .ok (_, arena) => .ok () { workspace with arena := arena }
  | .error problem => .error (.arena problem) workspace

/-- Pays for one form. -/
def reserveForm : Build Unit := reserve formBytes wordAlignment

/-- Pays for a row of references to `count` forms. -/
def reserveReferences (count : Nat) : Build Unit :=
  reserve (referenceBytes * count).toUInt64 wordAlignment

/-- Adds findings to those made so far. -/
def report (findings : List Finding) : Build Unit := fun workspace =>
  .ok () { workspace with findings := workspace.findings ++ findings }

/-- The symbol of a name. -/
def intern (name : String) : Build Symbol := fun workspace =>
  let (symbol, symbols) := workspace.symbols.intern name
  .ok symbol { workspace with symbols := symbols }

/-- Reports why a token has no value, and stands in for it. -/
def refuse (cause : Cause) (span : Span) : Build Form := do
  report [⟨cause, span⟩]
  return .error span

/-! ## Leaves -/

/-- The form of an atom: the symbol of its name. -/
def atom (span : Span) (lexeme : List UInt8) : Build Form :=
  match Text.ofBytes? lexeme with
  | some name => return .symbol span (← intern name)
  | none => refuse .symbolNotUtf8 span

/-- The form of an integer literal. -/
def integer (span : Span) (lexeme : List UInt8) : Build Form :=
  match Numeral.readInt64? lexeme with
  | some value => return .integer span value
  | none => refuse .integerOutOfRange span

/-- The form of a float literal. -/
def float (span : Span) (lexeme : List UInt8) : Build Form :=
  match Binary64.read? lexeme with
  | some value => return .float span value
  | none => refuse .floatNotDecimal span

/-- The form of a string literal, whose contents are paid for. -/
def string (span : Span) (lexeme : List UInt8) : Build Form := do
  let contents := Escape.literalContents lexeme
  reserve contents.length.toUInt64 1
  return .string span contents

/-- The form of a token that needs no other token, once it has been paid for. -/
def leaf (token : Token) (source : List UInt8) : Build Form := do
  let lexeme := token.lexeme source
  let form ←
    match token.kind with
    | .atom => atom token.span lexeme
    | .integer => integer token.span lexeme
    | .float => float token.span lexeme
    | .string => string token.span lexeme
    | .leftParen | .rightParen | .quote | .endOfInput | .error => pure (.error token.span)
  reserveForm
  return form

end Build

/-- A list or quote that is not complete. -/
inductive Frame where
  /-- A list with its left parenthesis and its items so far, the last first. -/
  | list (opening : Span) (items : List Form)
  /-- A quote that waits for its form. -/
  | quote (mark : Span)

/-- The frames that are open, innermost first, and the complete top-level forms, last first. -/
structure Nest where
  frames : List Frame
  forms : List Form

namespace Nest

/-- The nest before the first token. -/
def empty : Nest := ⟨[], []⟩

/-- The number of lists and quotes around whatever comes next. -/
def depth (nest : Nest) : Nat := nest.frames.length

/-- Adds a complete form: it completes the quotes that wait for it, and joins the innermost list or
the top level. -/
def place (form : Form) : (frames : List Frame) → (forms : List Form) → Build Nest
  | [], forms => return ⟨[], form :: forms⟩
  | .list opening items :: outer, forms => return ⟨.list opening (form :: items) :: outer, forms⟩
  | .quote mark :: outer, forms => do
    Build.reserveForm
    place (.quote (mark.cover form.span) form) outer forms

/-- Completes a list at its right parenthesis. -/
def close (opening closing : Span) (items : List Form) (outer : List Frame) (forms : List Form) :
    Build Nest := do
  Build.reserveReferences items.length
  Build.reserveForm
  place (.list (opening.cover closing) items.reverse) outer forms

/-- Takes a token with which a form starts. Too many open frames are found before anything else. -/
def startForm (limit : Nat) (source : List UInt8) (nest : Nest) (token : Token) : Build Nest :=
  if limit < nest.depth then throw (.tooDeep token.span limit)
  else
    match token.kind with
    | .leftParen => return { nest with frames := .list token.span [] :: nest.frames }
    | .quote => return { nest with frames := .quote token.span :: nest.frames }
    | .rightParen => throw (.unbalanced token.span)
    | .endOfInput => throw (.unexpectedEnd token.span)
    | .atom | .integer | .float | .string | .error => do
      let form ← Build.leaf token source
      place form nest.frames nest.forms

/-- Takes a token that is not the end of the input. A right parenthesis closes the innermost frame
if that is a list; after an apostrophe it stands where a form must start. -/
def take (limit : Nat) (source : List UInt8) (nest : Nest) (token : Token) : Build Nest :=
  match token.kind, nest.frames with
  | .rightParen, [] => throw (.unbalanced token.span)
  | .rightParen, .list opening items :: outer =>
    close opening token.span items outer nest.forms
  | _, _ => nest.startForm limit source token

/-- Takes the end of the input. It completes the forms if none is open and there is at least one. -/
def finish (limit : Nat) (nest : Nest) (location : Span) : Build (List Form) :=
  match nest.frames, nest.forms with
  | [], [] => throw .empty
  | [], forms => do
    Build.reserveReferences forms.length
    return forms.reverse
  | .list opening _ :: _, _ => throw (.unclosed opening)
  | .quote _ :: _, _ =>
    if limit < nest.depth then throw (.tooDeep location limit)
    else throw (.unexpectedEnd location)

end Nest

end LispReader
