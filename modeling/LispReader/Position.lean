import LispReader.Byte

/-!
# Lines and columns

People are shown positions as lines and columns, both counted from one, columns in bytes. The
starts of the lines of a source are collected once, and the line of an offset is found among them
by bisection. Offsets past the end of the source lie on its last line. Offsets, lines and columns
are words of 32 bits: counting from one goes past the largest of them, so the largest offset may be
left without a position.
-/

namespace LispReader

/-- A line and a column, both counted from one. -/
structure Position where
  line : Nat
  column : Nat
  deriving DecidableEq, Inhabited

namespace Position

/-- A position as it is printed. -/
def text (position : Position) : String := s!"{position.line}:{position.column}"

end Position

/-- The offsets at which the lines of a source start, in ascending order. -/
structure LineStarts where
  starts : Array Nat

namespace LineStarts

/-- The starts of the lines that follow the newlines in `rest`, which stands at `offset`. They end
where a start is no word any more. -/
def startsAfter (offset : Nat) : List UInt8 → List Nat
  | [] => []
  | byte :: rest =>
    if byte == Byte.newline then
      if offset + 1 < UInt32.size then (offset + 1) :: startsAfter (offset + 1) rest else []
    else startsAfter (offset + 1) rest

/-- The line starts of a source; the first line starts with the source. -/
def ofSource (source : List UInt8) : LineStarts := ⟨(0 :: startsAfter 0 source).toArray⟩

/-- The number of lines. -/
def lineCount (index : LineStarts) : Nat := index.starts.size

/-- The first place in `low ≤ i ≤ high` from which on every start is past `offset`, provided that
the starts ascend, those before `low` are at most `offset` and those from `high` on are past it. -/
def firstPast (starts : Array Nat) (offset low high : Nat) : Nat :=
  if low < high then
    let middle := (low + high) / 2
    if starts.getD middle 0 ≤ offset then firstPast starts offset (middle + 1) high
    else firstPast starts offset low middle
  else low
  termination_by high - low

/-- A number as a word, if it is one. -/
def word? (number : Nat) : Option Nat := if number < UInt32.size then some number else none

/-- The line and column of an offset. There is no position if no line is known to start at or before
the offset, or if one of the two is no word. -/
def position (index : LineStarts) (offset : Nat) : Option Position := do
  let line := firstPast index.starts offset 0 index.starts.size
  let start ← index.starts[line - 1]?
  if offset < start then none
  else return ⟨← word? line, ← word? (offset - start + 1)⟩

/-- A number smaller than the number of words is a word. -/
theorem word?_of_lt {number : Nat} (small : number < UInt32.size) : word? number = some number :=
  if_pos small

/-- A number from the number of words on is no word. -/
theorem word?_of_le {number : Nat} (large : UInt32.size ≤ number) : word? number = none :=
  if_neg (Nat.not_lt_of_le large)

end LineStarts

end LispReader
