/-!
# UTF-8 text in bytes

Text is kept as bytes, and bytes need not be text. Each lead byte of UTF-8 fixes the ranges of the
bytes that follow it. Repairing replaces every maximal invalid part, which is the longest run that
starts a character but does not complete one, or else a single byte, by one replacement character.
-/

namespace LispReader

namespace Utf8

/-- A range of bytes, both ends included. -/
structure ByteRange where
  first : UInt8
  last : UInt8
  deriving DecidableEq

namespace ByteRange

/-- Whether a byte lies in the range. -/
def contains (range : ByteRange) (byte : UInt8) : Bool :=
  range.first ≤ byte && byte ≤ range.last

end ByteRange

/-- The bytes that may continue any character. -/
def continuation : ByteRange := ⟨0x80, 0xBF⟩

/-- The ranges of the bytes after a lead byte, if it is one. The ranges leave out overlong forms,
surrogates, and code points past the last. -/
def followers? (lead : UInt8) : Option (List ByteRange) :=
  if lead ≤ 0x7F then some []
  else if lead < 0xC2 then none
  else if lead ≤ 0xDF then some [continuation]
  else if lead = 0xE0 then some [⟨0xA0, 0xBF⟩, continuation]
  else if lead = 0xED then some [⟨0x80, 0x9F⟩, continuation]
  else if lead ≤ 0xEF then some [continuation, continuation]
  else if lead = 0xF0 then some [⟨0x90, 0xBF⟩, continuation, continuation]
  else if lead ≤ 0xF3 then some [continuation, continuation, continuation]
  else if lead = 0xF4 then some [⟨0x80, 0x8F⟩, continuation, continuation]
  else none

/-- The number of bytes at the front of `input` that lie in the ranges one after the other. -/
def matching : List ByteRange → (input : List UInt8) → Nat
  | [], _ => 0
  | _ :: _, [] => 0
  | range :: ranges, byte :: rest =>
    if range.contains byte then matching ranges rest + 1 else 0

/-- The replacement character. -/
def replacement : List UInt8 := [0xEF, 0xBF, 0xBD]

/-- The first character of `lead :: rest`, or the replacement of its first invalid part, and the
number of bytes of `rest` that belong to it. -/
def leading (lead : UInt8) (rest : List UInt8) : List UInt8 × Nat :=
  match followers? lead with
  | none => (replacement, 0)
  | some ranges =>
    let count := matching ranges rest
    (if count = ranges.length then lead :: rest.take count else replacement, count)

/-- The bytes with every maximal invalid part replaced. -/
def repair : List UInt8 → List UInt8
  | [] => []
  | lead :: rest => (leading lead rest).1 ++ repair (rest.drop (leading lead rest).2)
  termination_by input => input.length
  decreasing_by simp only [List.length_drop, List.length_cons]; omega

end Utf8

end LispReader
