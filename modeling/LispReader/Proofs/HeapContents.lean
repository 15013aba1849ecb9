import LispReader.Arena.Heap
import LispReader.Proofs.Alignment

/-!
# The contents of a heap

Bytes that are written stay where they were written, and everything around them stays as it was. So
a cell is read as the numbers whose bytes its region holds, and what a heap hands out is a fresh
region behind all the bytes spoken for before, which are kept.
-/

namespace LispReader

namespace Width

/-- The first number that takes more than `count` bytes. -/
def limit : (count : Nat) → Nat
  | 0 => 1
  | count + 1 => 256 * limit count

/-- The bytes of a number stand for it, as far as they go. -/
theorem ofLittleEndian_littleEndian (count number : Nat) :
    ofLittleEndian (littleEndian count number) = number % limit count := by
  induction count generalizing number with
  | zero => rw [limit, Nat.mod_one, littleEndian, ofLittleEndian]
  | succ count ih =>
    have low : (number % 256).toUInt8.toNat = number % 256 :=
      UInt8.toNat_ofNat_of_lt' (Nat.mod_lt _ (by decide))
    rw [littleEndian, ofLittleEndian, ih, low, limit, Nat.mod_mul]

end Width

namespace Heap

/-! ## Contents -/

/-- A heap holds bytes from `start` on. -/
def Holds (heap : Heap) (start : Nat) (contents : List UInt8) : Prop :=
  ∀ place byte, contents[place]? = some byte → heap.bytes[start + place]? = some byte

/-- What holds a row of bytes holds the front of it. -/
theorem Holds.front {heap : Heap} {start : Nat} {first second : List UInt8}
    (holds : heap.Holds start (first ++ second)) : heap.Holds start first := by
  intro place byte found
  have inside := (List.getElem?_eq_some_iff.mp found).1
  exact holds place byte ((List.getElem?_append_left inside).trans found)

/-- What holds a row of bytes holds the back of it further on. -/
theorem Holds.back {heap : Heap} {start : Nat} {first second : List UInt8}
    (holds : heap.Holds start (first ++ second)) :
    heap.Holds (start + first.length) second := by
  intro place byte found
  rw [Nat.add_assoc]
  refine holds (first.length + place) byte ?_
  rw [List.getElem?_append_right (Nat.le_add_right ..), Nat.add_sub_cancel_left]
  exact found

/-- The bytes after a row of values has been written: the values where they were written, and what
was there everywhere else. -/
theorem getElem?_overwrite (bytes : Array UInt8) (start : Nat) (values : List UInt8) (place : Nat)
    (inside : place < bytes.size) :
    (overwrite bytes start values)[place]? =
      if start ≤ place ∧ place < start + values.length then values[place - start]?
      else bytes[place]? := by
  induction values generalizing bytes start with
  | nil =>
    rw [overwrite, List.length_nil, if_neg (by omega)]
  | cons value rest ih =>
    rw [overwrite, ih _ _ (by rwa [Array.size_setIfInBounds]), List.length_cons]
    rcases Nat.lt_trichotomy place start with before | same | after
    · rw [if_neg (by omega), if_neg (by omega),
        Array.getElem?_setIfInBounds_ne (Nat.ne_of_gt before)]
    · subst same
      rw [if_neg (by omega), if_pos (by omega), Array.getElem?_setIfInBounds_self_of_lt inside,
        Nat.sub_self, List.getElem?_cons_zero]
    · rw [Array.getElem?_setIfInBounds_ne (Nat.ne_of_lt after),
        show place - start = place - (start + 1) + 1 by omega, List.getElem?_cons_succ]
      have among : start + 1 ≤ place ∧ place < start + 1 + rest.length ↔
          start ≤ place ∧ place < start + (rest.length + 1) := by omega
      simp only [among]

/-- The number at an index of a cell is the one whose bytes are held there. -/
theorem readAt_of_holds {heap : Heap} {cell : Cell} {index number : Nat}
    (holds : heap.Holds (cell.start + cell.width.bytes * index)
      (Width.littleEndian cell.width.bytes number)) :
    heap.readAt cell index = number % Width.limit cell.width.bytes := by
  rw [← Width.ofLittleEndian_littleEndian, readAt]
  refine congrArg Width.ofLittleEndian (List.ext_getElem (by simp) fun place _ inside => ?_)
  have held := holds place _ (List.getElem?_eq_getElem inside)
  rw [List.getElem_map, List.getElem_range, Array.getD_eq_getD_getElem?, held]
  rfl

/-- The numbers of a cell are those whose bytes are held in it, as far as the width goes. -/
theorem read_of_holds {heap : Heap} {start : Nat} {width : Width} {numbers : List Nat}
    (holds : heap.Holds start (width.spell numbers)) :
    heap.read ⟨start, width, numbers.length⟩ = numbers.map (· % Width.limit width.bytes) := by
  induction numbers generalizing start with
  | nil => rfl
  | cons number rest ih =>
    rw [Width.spell, List.flatMap_cons] at holds
    have first : heap.readAt ⟨start, width, rest.length + 1⟩ 0 = number % Width.limit width.bytes :=
      readAt_of_holds (by simpa using holds.front)
    have behind := holds.back
    rw [Width.length_littleEndian] at behind
    have others := ih behind
    rw [read, List.length_cons, List.range_succ_eq_map, List.map_cons, first, List.map_map,
      List.map_cons, ← others, read]
    refine congrArg (List.cons _) (List.map_congr_left fun index _ => ?_)
    -- The numbers behind the first are those of the cell that starts behind it.
    simp only [Function.comp_apply, readAt, Nat.mul_succ, Nat.add_assoc,
      Nat.add_comm width.bytes, Nat.succ_eq_add_one]

/-! ## What is handed out -/

/-- A heap has handed out a region of `size` bytes at `align`, and kept the bytes spoken for
before. -/
structure Grants (heap : Heap) (size align : UInt64) (start : Nat) (after : Heap) : Prop where
  arena : heap.arena.Grants size align start after.arena
  keeps : ∀ place < heap.arena.offset.toNat, after.bytes[place]? = heap.bytes[place]?

/-- What a reservation has handed out, if it was granted. -/
theorem grants_of_reserve {heap after : Heap} {size align : UInt64} {start : Nat}
    (granted : heap.reserve size align = .ok (start, after)) :
    heap.Grants size align start after := by
  unfold reserve at granted
  split at granted
  · cases granted
  · rename_i address arena allocated
    have arenas := Arena.grants_of_allocate allocated
    rw [← arenas.base] at arenas
    cases granted
    refine ⟨arenas, fun place spoken => ?_⟩
    rw [← heap.size_bytes] at spoken
    exact Array.getElem?_append_left spoken

/-- Bytes written behind a place leave it as it is, and those written inside are held. -/
theorem getElem?_poke {heap : Heap} {start place : Nat} {contents : List UInt8}
    (inside : place < heap.arena.offset.toNat) :
    (heap.poke start contents).bytes[place]? =
      if start ≤ place ∧ place < start + contents.length then contents[place - start]?
      else heap.bytes[place]? :=
  getElem?_overwrite heap.bytes start contents place (heap.size_bytes ▸ inside)

/-- What a placement has handed out, if it was granted: a region that holds the contents. -/
theorem grants_of_place {heap after : Heap} {contents : List UInt8} {align : UInt64} {start : Nat}
    (small : contents.length < UInt64.size)
    (granted : heap.place contents align = .ok (start, after)) :
    heap.Grants contents.length.toUInt64 align start after ∧ after.Holds start contents := by
  unfold place at granted
  split at granted
  · cases granted
  · rename_i first reserved found
    cases granted
    obtain ⟨arena, keeps⟩ := grants_of_reserve found
    have length : contents.length.toUInt64.toNat = contents.length :=
      UInt64.toNat_ofNat_of_lt' small
    have stops : reserved.arena.offset.toNat = start + contents.length := by
      rw [arena.stop, length]
    refine ⟨⟨arena, fun spot spoken => ?_⟩, fun spot byte found => ?_⟩
    · have behind := arena.behind
      rw [getElem?_poke (by omega), if_neg (by omega)]
      exact keeps spot spoken
    · have inside := (List.getElem?_eq_some_iff.mp found).1
      rw [getElem?_poke (by omega), if_pos (by omega), Nat.add_sub_cancel_left]
      exact found

end Heap

end LispReader
