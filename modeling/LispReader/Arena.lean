/-!
# Bump arenas

An arena hands out regions of one block of memory, front to back, and never takes one back.
Addresses and sizes are words of 64 bits. Every sum that could leave that range is checked, so the
decisions are those of unbounded arithmetic, and a refused request leaves the arena as it was.
-/

namespace LispReader

/-- Why an arena cannot be made or a request cannot be met. -/
inductive ArenaError where
  | zeroCapacity
  | unavailable (capacity : UInt64)
  | badAlignment (align : UInt64)
  | exhausted (requested align remaining : UInt64)
  deriving DecidableEq

namespace ArenaError

/-- The words printed for an error. -/
def message : ArenaError → String
  | .zeroCapacity => "arena capacity must be nonzero"
  | .unavailable capacity => s!"could not obtain {capacity.toNat} bytes for arena"
  | .badAlignment align => s!"alignment {align.toNat} is not a power of two"
  | .exhausted requested align remaining =>
    s!"arena exhausted: requested {requested.toNat} bytes (align {align.toNat}), " ++
      s!"{remaining.toNat} remaining"

end ArenaError

/-- A block of `capacity` bytes at address `base`, of which the first `offset` are spoken for. -/
structure Arena where
  base : UInt64
  capacity : UInt64
  offset : UInt64
  base_aligned : base.toNat % 16 = 0
  block_fits : base.toNat + capacity.toNat < UInt64.size
  offset_le_capacity : offset.toNat ≤ capacity.toNat

namespace Arena

/-- The address at which blocks are placed. Only its alignment to a page and its size, far above
the largest block that is given out and far below the largest address, can ever be told. -/
def blockAddress : UInt64 := 0x400000000000

/-- Capacities from this on are never obtained. -/
def capacityLimit : UInt64 := 0x7FFFFFFFFFFFFFF0

/-- An arena over a fresh block. -/
def create (capacity : UInt64) : Except ArenaError Arena :=
  if capacity = 0 then .error .zeroCapacity
  else if available : capacity < capacityLimit then
    .ok {
      base := blockAddress
      capacity := capacity
      offset := 0
      base_aligned := by decide
      block_fits := by
        have bound : capacity.toNat < capacityLimit.toNat := UInt64.lt_iff_toNat_lt.mp available
        have limit : capacityLimit.toNat = 0x7FFFFFFFFFFFFFF0 := rfl
        have address : blockAddress.toNat = 0x400000000000 := rfl
        simp only [UInt64.size]
        omega
      offset_le_capacity := Nat.zero_le _ }
  else .error (.unavailable capacity)

/-- The number of bytes that are not spoken for. -/
def remaining (arena : Arena) : UInt64 := arena.capacity - arena.offset

/-- Whether a word has exactly one bit set. -/
def isPowerOfTwo (word : UInt64) : Bool := word != 0 && word &&& (word - 1) == 0

/-- The sum of two words, if it is a word. -/
def checkedAdd? (first second : UInt64) : Option UInt64 :=
  let sum := first + second
  if sum < first then none else some sum

/-- The number of bytes to skip after `address` up to a multiple of the power of two `align`. -/
def padding (address align : UInt64) : UInt64 := (0 - address) &&& (align - 1)

/-- Where a request would start and stop inside the block, before the capacity is looked at. -/
def extent? (arena : Arena) (size align : UInt64) : Option (UInt64 × UInt64) :=
  match checkedAdd? arena.offset (padding (arena.base + arena.offset) align) with
  | none => none
  | some start => (checkedAdd? start size).map fun stop => (start, stop)

/-- Reserves `size` bytes at a multiple of `align`, and gives the address of the first. -/
def allocate (arena : Arena) (size align : UInt64) : Except ArenaError (UInt64 × Arena) :=
  if isPowerOfTwo align then
    match arena.extent? size align with
    | none => .error (.exhausted size align arena.remaining)
    | some (start, stop) =>
      if fits : stop ≤ arena.capacity then
        .ok (arena.base + start,
          { arena with offset := stop, offset_le_capacity := UInt64.le_iff_toNat_le.mp fits })
      else .error (.exhausted size align arena.remaining)
  else .error (.badAlignment align)

/-- Whether `size` bytes from `address` on lie inside the block. -/
def contains (arena : Arena) (address size : UInt64) : Bool :=
  arena.base ≤ address &&
    match checkedAdd? address size with
    | none => false
    | some stop => stop ≤ arena.base + arena.capacity

/-! ## Exact sums -/

/-- A checked sum is the sum of the numbers, and is refused exactly when that is no word. -/
theorem checkedAdd?_eq_some {first second sum : UInt64} :
    checkedAdd? first second = some sum ↔ sum.toNat = first.toNat + second.toNat := by
  have firstBound := first.toNat_lt
  have secondBound := second.toNat_lt
  simp only [checkedAdd?, UInt64.lt_iff_toNat_lt, UInt64.toNat_add]
  split
  · have sumBound := sum.toNat_lt
    simp only [reduceCtorEq, false_iff]
    omega
  · simp only [Option.some.injEq, ← UInt64.toNat_inj, UInt64.toNat_add]
    omega

/-- A checked sum is refused exactly when the sum of the numbers is no word. -/
theorem checkedAdd?_eq_none {first second : UInt64} :
    checkedAdd? first second = none ↔ UInt64.size ≤ first.toNat + second.toNat := by
  have firstBound := first.toNat_lt
  have secondBound := second.toNat_lt
  simp only [checkedAdd?, UInt64.lt_iff_toNat_lt, UInt64.toNat_add, UInt64.size]
  split
  · simp only [true_iff]
    omega
  · simp only [reduceCtorEq, false_iff]
    omega

/-- The extent of a request starts after the padding that follows the bytes already spoken for, and
stops `size` bytes further on. -/
theorem extent?_eq_some {arena : Arena} {size align start stop : UInt64}
    (found : arena.extent? size align = some (start, stop)) :
    start.toNat = arena.offset.toNat + (padding (arena.base + arena.offset) align).toNat ∧
      stop.toNat = start.toNat + size.toNat := by
  simp only [extent?] at found
  split at found
  · cases found
  · rename_i first placed
    obtain ⟨last, ended, pair⟩ := Option.map_eq_some_iff.mp found
    cases pair
    exact ⟨checkedAdd?_eq_some.mp placed, checkedAdd?_eq_some.mp ended⟩

/-- A request has no extent if that would not stop at a word. -/
theorem extent?_eq_none {arena : Arena} {size align : UInt64}
    (missing : arena.extent? size align = none) :
    UInt64.size ≤ arena.offset.toNat +
      (padding (arena.base + arena.offset) align).toNat + size.toNat := by
  simp only [extent?] at missing
  split at missing
  · rename_i refused
    have := checkedAdd?_eq_none.mp refused
    omega
  · rename_i first placed
    have startsAt := checkedAdd?_eq_some.mp placed
    have := checkedAdd?_eq_none.mp (Option.map_eq_none_iff.mp missing)
    omega

/-- What is not spoken for is what is left of the block. -/
theorem toNat_remaining (arena : Arena) :
    arena.remaining.toNat = arena.capacity.toNat - arena.offset.toNat :=
  UInt64.toNat_sub_of_le _ _ (UInt64.le_iff_toNat_le.mpr arena.offset_le_capacity)

/-! ## Granted requests -/

/-- A granted request lies between the bytes spoken for before and after it. -/
theorem offset_allocate {arena after : Arena} {size align address : UInt64}
    (granted : arena.allocate size align = .ok (address, after)) :
    arena.offset.toNat + size.toNat ≤ after.offset.toNat := by
  unfold allocate at granted
  split at granted
  · split at granted
    · cases granted
    · rename_i start stop found
      split at granted
      · cases granted
        have := extent?_eq_some found
        simp only
        omega
      · cases granted
  · cases granted

/-- Padding is less than the alignment. -/
theorem padding_le (address align : UInt64) (positive : 0 < align.toNat) :
    (padding address align).toNat ≤ align.toNat - 1 := by
  have bound := align.toNat_lt
  have less : (align - 1).toNat = align.toNat - 1 := by
    rw [UInt64.toNat_sub_of_le]
    · rfl
    · exact UInt64.le_iff_toNat_le.mpr positive
  rw [padding, UInt64.toNat_and, ← less]
  exact Nat.and_le_right

/-- A request at a proper alignment is granted if the block has room for it after the most padding
that there can be, and then takes no more than that. -/
theorem allocate_bound (arena : Arena) (size : UInt64) {align : UInt64}
    (proper : isPowerOfTwo align = true) :
    (∃ address after, arena.allocate size align = .ok (address, after) ∧
      after.capacity = arena.capacity ∧
      after.offset.toNat ≤ arena.offset.toNat + (align.toNat - 1) + size.toNat) ∨
    ∃ problem, arena.allocate size align = .error problem ∧
      arena.capacity.toNat < arena.offset.toNat + (align.toNat - 1) + size.toNat := by
  have positive : 0 < align.toNat := by
    apply Nat.pos_of_ne_zero
    intro zero
    rw [UInt64.toNat_inj.mp (zero.trans UInt64.toNat_zero.symm)] at proper
    cases proper
  have padded := padding_le (arena.base + arena.offset) align positive
  have capacityBound := arena.block_fits
  unfold allocate
  rw [if_pos proper]
  cases found : arena.extent? size align with
  | none =>
    have overflow := extent?_eq_none found
    exact .inr ⟨_, rfl, by omega⟩
  | some extent =>
    obtain ⟨start, stop⟩ := extent
    obtain ⟨startsAt, stopsAt⟩ := extent?_eq_some found
    by_cases fits : stop ≤ arena.capacity
    · simp only [dif_pos fits]
      refine .inl ⟨_, _, rfl, rfl, ?_⟩
      simp only
      omega
    · simp only [dif_neg fits]
      rw [UInt64.le_iff_toNat_le] at fits
      exact .inr ⟨_, rfl, by omega⟩

/-- A request never moves or resizes the block. -/
theorem allocate_block {arena after : Arena} {size align address : UInt64}
    (granted : arena.allocate size align = .ok (address, after)) :
    after.base = arena.base ∧ after.capacity = arena.capacity := by
  unfold allocate at granted
  repeat' split at granted
  all_goals cases granted
  exact ⟨rfl, rfl⟩

end Arena

end LispReader
