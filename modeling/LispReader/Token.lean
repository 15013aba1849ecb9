import LispReader.Span

/-!
# Tokens

A token is a kind and the span of source bytes it was read from; its text is sliced out of the
source on demand. Kinds have a fixed order, which gives each its tag.
-/

namespace LispReader

/-- The kinds of token. -/
inductive TokenKind where
  | leftParen
  | rightParen
  | quote
  | atom
  | integer
  | float
  | string
  | endOfInput
  | error
  deriving DecidableEq, Inhabited

namespace TokenKind

/-- Every kind, in the order of the tags. -/
def all : List TokenKind :=
  [.leftParen, .rightParen, .quote, .atom, .integer, .float, .string, .endOfInput, .error]

/-- The place of a kind in `all`. -/
def tag : TokenKind → Nat
  | .leftParen => 0
  | .rightParen => 1
  | .quote => 2
  | .atom => 3
  | .integer => 4
  | .float => 5
  | .string => 6
  | .endOfInput => 7
  | .error => 8

/-- The kind with a given tag. -/
def ofTag? (tag : Nat) : Option TokenKind := all[tag]?

/-- The words that name a kind in messages. -/
def name : TokenKind → String
  | .leftParen => "left paren"
  | .rightParen => "right paren"
  | .quote => "quote"
  | .atom => "atom"
  | .integer => "integer literal"
  | .float => "float literal"
  | .string => "string literal"
  | .endOfInput => "end of input"
  | .error => "error"

/-- The variant name shown when a kind is inspected. -/
def inspect : TokenKind → String
  | .leftParen => "LParen"
  | .rightParen => "RParen"
  | .quote => "Quote"
  | .atom => "Atom"
  | .integer => "Integer"
  | .float => "Float"
  | .string => "String"
  | .endOfInput => "Eof"
  | .error => "Error"

/-- The words for a tag that need not belong to any kind. -/
def nameOfTag (tag : Nat) : String :=
  match ofTag? tag with
  | some kind => kind.name
  | none => "<unknown>"

/-- A kind is found again by its tag. -/
theorem ofTag?_tag (kind : TokenKind) : ofTag? kind.tag = some kind := by
  cases kind <;> rfl

end TokenKind

/-- A kind and the bytes it was read from. -/
structure Token where
  kind : TokenKind
  span : Span
  deriving DecidableEq

namespace Token

/-- The token that stands in unused slots: an end of input before the first byte. -/
def blank : Token := ⟨.endOfInput, .origin⟩

instance : Inhabited Token := ⟨blank⟩

/-- The end of a source of `length` bytes. -/
def endOfInput (length : Nat) : Token := ⟨.endOfInput, ⟨length, length⟩⟩

/-- Where the token starts. -/
def location (token : Token) : Nat := token.span.start

/-- The bytes of `source` that the token was read from. -/
def lexeme (token : Token) (source : List UInt8) : List UInt8 := token.span.slice source

end Token

end LispReader
