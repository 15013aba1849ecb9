import LispReader.Arena
import LispReader.Diagnostic
import LispReader.Form.Inspect

/-!
# Why a read fails

A read stops at the first structural fault, or when its arena is exhausted. Two of the faults only
say that the source ended too early, so that more input might complete it; the others are final.
-/

namespace LispReader

/-- What stopped a read. -/
inductive ReadError where
  /-- A right parenthesis closes nothing. -/
  | unbalanced (location : Span)
  /-- The source ends inside a list. -/
  | unclosed (opening : Span)
  /-- The source ends after an apostrophe. -/
  | unexpectedEnd (location : Span)
  /-- The source holds no form. -/
  | empty
  /-- A form lies inside more than `limit` others. -/
  | tooDeep (location : Span) (limit : Nat)
  /-- The source is longer than positions can count. -/
  | sourceTooLarge (length : Nat)
  /-- The arena could not hold the forms. -/
  | arena (problem : ArenaError)
  deriving DecidableEq

namespace ArenaError

/-- An arena error as a record. -/
def inspect : ArenaError → String
  | .zeroCapacity => "ZeroCapacity"
  | .unavailable capacity =>
    Text.record "Unavailable" [Text.field "capacity" (toString capacity.toNat)]
  | .badAlignment align => Text.record "BadAlignment" [Text.field "align" (toString align.toNat)]
  | .exhausted requested align remaining =>
    Text.record "Exhausted" [
      Text.field "requested" (toString requested.toNat),
      Text.field "align" (toString align.toNat),
      Text.field "remaining" (toString remaining.toNat)]

end ArenaError

namespace Arena

/-- An arena as a record of how much of it is spoken for. -/
def inspect (arena : Arena) : String :=
  Text.record "Arena" [
    Text.field "capacity" (toString arena.capacity.toNat),
    Text.field "offset" (toString arena.offset.toNat)]

end Arena

namespace ReadError

/-- The words printed for an error. -/
def message : ReadError → String
  | .unbalanced _ => "right paren without matching left paren"
  | .unclosed _ => "end of input inside a list"
  | .unexpectedEnd _ => "end of input where an expression was expected"
  | .empty => "no expressions in input"
  | .tooDeep _ limit => s!"lists nested deeper than {limit}"
  | .sourceTooLarge length => s!"source of {length} bytes is too large to read"
  | .arena problem => problem.message

/-- Whether more input might complete the source. -/
def isIncomplete : ReadError → Bool
  | .unclosed _ | .unexpectedEnd _ => true
  | .unbalanced _ | .empty | .tooDeep _ _ | .sourceTooLarge _ | .arena _ => false

/-- The part of the source that an error concerns, if it is one in particular. -/
def span? : ReadError → Option Span
  | .unbalanced location => some location
  | .unclosed opening => some opening
  | .unexpectedEnd location => some location
  | .tooDeep location _ => some location
  | .empty | .sourceTooLarge _ | .arena _ => none

/-- An error as a diagnostic; one without a place is reported at the start of the source. -/
def diagnostic (problem : ReadError) : Diagnostic :=
  .error (problem.span?.getD .origin) problem.message

/-- An error as a record. -/
def inspect : ReadError → String
  | .unbalanced location => Text.record "Unbalanced" [Text.field "at" location.inspect]
  | .unclosed opening => Text.record "Unclosed" [Text.field "open" opening.inspect]
  | .unexpectedEnd location => Text.record "UnexpectedEof" [Text.field "at" location.inspect]
  | .empty => "Empty"
  | .tooDeep location limit =>
    Text.record "TooDeep" [
      Text.field "at" location.inspect,
      Text.field "limit" (toString limit)]
  | .sourceTooLarge length =>
    Text.record "SourceTooLarge" [Text.field "len" (toString length)]
  | .arena problem => Text.wrapped "Arena" problem.inspect

end ReadError

end LispReader
