import LispReader.Arena

/-!
# Values in an arena

A heap is an arena together with the bytes it has handed out. Numbers of one, two, four or eight
bytes are stored least significant byte first, in cells of one or more numbers of the same width,
and can be read and overwritten for as long as the heap lives.
-/

namespace LispReader

/-- The widths of stored numbers. -/
inductive Width where
  | one
  | two
  | four
  | eight
  deriving DecidableEq, Inhabited

namespace Width

/-- The number of bytes of a width, which is also its alignment. -/
def bytes : Width → Nat
  | .one => 1
  | .two => 2
  | .four => 4
  | .eight => 8

/-- The `count` bytes of a number, least significant first. -/
def littleEndian : (count number : Nat) → List UInt8
  | 0, _ => []
  | count + 1, number => (number % 256).toUInt8 :: littleEndian count (number / 256)

/-- The bytes of numbers of one width, next to each other. -/
def spell (width : Width) (numbers : List Nat) : List UInt8 :=
  numbers.flatMap (littleEndian width.bytes)

/-- The number that bytes stand for, least significant first. -/
def ofLittleEndian : List UInt8 → Nat
  | [] => 0
  | byte :: rest => byte.toNat + 256 * ofLittleEndian rest

/-- A number has as many bytes as asked for. -/
@[simp] theorem length_littleEndian (count number : Nat) :
    (littleEndian count number).length = count := by
  induction count generalizing number with
  | zero => rfl
  | succ count ih => simp [littleEndian, ih]

end Width

/-- A region that holds `count` numbers of one width, `start` bytes into the block. -/
structure Cell where
  start : Nat
  width : Width
  count : Nat
  deriving DecidableEq

/-- An arena and the contents of the bytes it has spoken for. -/
structure Heap where
  arena : Arena
  bytes : Array UInt8
  size_bytes : bytes.size = arena.offset.toNat

namespace Heap

/-- A heap over a fresh block. -/
def create (capacity : UInt64) : Except ArenaError Heap :=
  match Arena.create capacity with
  | .error problem => .error problem
  | .ok arena => .ok ⟨arena, Array.replicate arena.offset.toNat 0, Array.size_replicate⟩

/-- Reserves `size` bytes at a multiple of `align`. The result is where they start in the block. -/
def reserve (heap : Heap) (size align : UInt64) : Except ArenaError (Nat × Heap) :=
  match granted : heap.arena.allocate size align with
  | .error problem => .error problem
  | .ok (address, arena) =>
    .ok ((address - arena.base).toNat, {
      arena := arena
      bytes := heap.bytes ++ Array.replicate (arena.offset.toNat - heap.bytes.size) 0
      size_bytes := by
        have := Arena.offset_allocate granted
        have := heap.size_bytes
        simp only [Array.size_append, Array.size_replicate]
        omega })

/-- The contents with `values` written from `start` on. -/
def overwrite (bytes : Array UInt8) (start : Nat) : List UInt8 → Array UInt8
  | [] => bytes
  | value :: rest => overwrite (bytes.setIfInBounds start value) (start + 1) rest

/-- Writing bytes does not change how many there are. -/
@[simp] theorem size_overwrite (bytes : Array UInt8) (start : Nat) (values : List UInt8) :
    (overwrite bytes start values).size = bytes.size := by
  induction values generalizing bytes start with
  | nil => rfl
  | cons value rest ih => simp [overwrite, ih]

/-- The heap with `values` written from `start` on. -/
def poke (heap : Heap) (start : Nat) (values : List UInt8) : Heap :=
  { heap with
    bytes := overwrite heap.bytes start values
    size_bytes := by rw [size_overwrite]; exact heap.size_bytes }

/-- Stores bytes in a fresh region at a multiple of `align`. The result is where they start. -/
def place (heap : Heap) (contents : List UInt8) (align : UInt64) :
    Except ArenaError (Nat × Heap) :=
  match heap.reserve contents.length.toUInt64 align with
  | .error problem => .error problem
  | .ok (start, heap) => .ok (start, heap.poke start contents)

/-- Stores numbers next to each other in a fresh cell. -/
def store (heap : Heap) (width : Width) (numbers : List Nat) : Except ArenaError (Cell × Heap) :=
  match heap.place (width.spell numbers) width.bytes.toUInt64 with
  | .error problem => .error problem
  | .ok (start, heap) => .ok (⟨start, width, numbers.length⟩, heap)

/-- The number at `index` of a cell. -/
def readAt (heap : Heap) (cell : Cell) (index : Nat) : Nat :=
  let start := cell.start + cell.width.bytes * index
  Width.ofLittleEndian
    ((List.range cell.width.bytes).map fun place => heap.bytes.getD (start + place) 0)

/-- The numbers of a cell. -/
def read (heap : Heap) (cell : Cell) : List Nat :=
  (List.range cell.count).map (heap.readAt cell)

/-- Overwrites the number at `index` of a cell. -/
def write (heap : Heap) (cell : Cell) (index number : Nat) : Heap :=
  heap.poke (cell.start + cell.width.bytes * index)
    (Width.littleEndian cell.width.bytes number)

end Heap

end LispReader
