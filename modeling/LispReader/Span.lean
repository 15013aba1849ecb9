/-!
# Byte ranges

Every position in this library is a number of bytes from the start of a source. A span is a
half-open range of such positions; the text it stands for is sliced out of the source on demand.
-/

namespace LispReader

/-- The bytes of a source from `start` up to, and not including, `stop`. -/
structure Span where
  start : Nat
  stop : Nat
  deriving DecidableEq, Inhabited

namespace Span

/-- The empty span at the beginning of a source. -/
def origin : Span := ⟨0, 0⟩

/-- The number of bytes covered. -/
def length (span : Span) : Nat := span.stop - span.start

/-- Whether no byte is covered. -/
def isEmpty (span : Span) : Bool := span.start == span.stop

/-- The smallest span that covers both. -/
def cover (first second : Span) : Span :=
  ⟨min first.start second.start, max first.stop second.stop⟩

/-- Spans are ordered by where they start, and then by where they stop. -/
def compare (first second : Span) : Ordering :=
  (Ord.compare first.start second.start).then (Ord.compare first.stop second.stop)

/-- The part of `source` that the span covers. -/
def slice {α : Type} (span : Span) (source : List α) : List α :=
  (source.drop span.start).take span.length

/-- A slice of a span inside the source has the span's length. -/
theorem length_slice {α : Type} (span : Span) (source : List α)
    (inside : span.stop ≤ source.length) : (span.slice source).length = span.length := by
  simp only [slice, length, List.length_take, List.length_drop]
  omega

/-- The span of a middle piece slices out that piece. -/
theorem slice_append {α : Type} (before middle after : List α) :
    slice ⟨before.length, before.length + middle.length⟩ (before ++ middle ++ after) = middle := by
  simp [slice, length]

end Span

end LispReader
