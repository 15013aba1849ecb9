import LispReader.Arena

/-!
# Aligned grants

A proper alignment is a power of two, and divides the number of addresses there are. So the bits of
a negated address that are below the alignment count the bytes up to the next multiple of it, and a
granted request starts at such a multiple, after everything that was spoken for, and stops inside
the block. For the alignments that blocks have themselves it does not matter where the block stands.
-/

namespace LispReader

namespace Arena

/-- An alignment is proper exactly if it is a power of two. -/
theorem isPowerOfTwo_iff {word : UInt64} :
    isPowerOfTwo word = true ↔ word.toNat.isPowerOfTwo := by
  rw [isPowerOfTwo, Bool.and_eq_true, bne_iff_ne, beq_iff_eq, ← UInt64.toNat_inj]
  by_cases zero : word = 0
  · subst zero
    refine iff_of_false (fun proper => proper.1 rfl) fun power => ?_
    exact Nat.ne_of_gt (Nat.pos_of_isPowerOfTwo power) UInt64.toNat_zero
  · have positive : word.toNat ≠ 0 := fun none => zero (UInt64.toNat_inj.mp none)
    have less : (word - 1).toNat = word.toNat - 1 :=
      UInt64.toNat_sub_of_le _ _ (UInt64.le_iff_toNat_le.mpr (Nat.pos_of_ne_zero positive))
    rw [UInt64.toNat_and, less]
    exact (and_iff_right zero).trans (Nat.and_sub_one_eq_zero_iff_isPowerOfTwo positive)

/-- A proper alignment divides the number of addresses. -/
theorem dvd_size_of_isPowerOfTwo {align : UInt64} (proper : isPowerOfTwo align = true) :
    align.toNat ∣ UInt64.size := by
  obtain ⟨exponent, power⟩ := isPowerOfTwo_iff.mp proper
  have bound : 2 ^ exponent < 2 ^ 64 := power ▸ align.toNat_lt
  rw [power, show UInt64.size = 2 ^ 64 from rfl]
  exact Nat.pow_dvd_pow 2 (Nat.le_of_lt ((Nat.pow_lt_pow_iff_right (by decide)).mp bound))

/-- The bytes to skip are what is missing to the next multiple of a proper alignment. -/
theorem toNat_padding (address : UInt64) {align : UInt64} (proper : isPowerOfTwo align = true) :
    (padding address align).toNat = (UInt64.size - address.toNat) % align.toNat := by
  obtain ⟨exponent, power⟩ := isPowerOfTwo_iff.mp proper
  have positive : 0 < align.toNat := power ▸ Nat.two_pow_pos exponent
  have less : (align - 1).toNat = 2 ^ exponent - 1 := by
    rw [← power]
    exact UInt64.toNat_sub_of_le _ _ (UInt64.le_iff_toNat_le.mpr positive)
  have negated : (0 - address).toNat % align.toNat =
      (UInt64.size - address.toNat) % align.toNat := by
    rw [UInt64.toNat_sub, UInt64.toNat_zero, Nat.add_zero]
    exact Nat.mod_mod_of_dvd _ (dvd_size_of_isPowerOfTwo proper)
  rw [padding, UInt64.toNat_and, less, Nat.and_two_pow_sub_one_eq_mod, ← power, negated]

/-- The address after the padding is a multiple of a proper alignment. -/
theorem padding_aligns (address : UInt64) {align : UInt64} (proper : isPowerOfTwo align = true) :
    (address.toNat + (padding address align).toNat) % align.toNat = 0 := by
  have bound := address.toNat_lt
  rw [toNat_padding address proper, Nat.add_mod_mod, ← Nat.add_sub_assoc (Nat.le_of_lt bound),
    Nat.add_sub_cancel_left]
  exact Nat.mod_eq_zero_of_dvd (dvd_size_of_isPowerOfTwo proper)

/-- The address of a place in the block is not wrapped. -/
theorem toNat_base_add (arena : Arena) {place : UInt64}
    (inside : place.toNat ≤ arena.capacity.toNat) :
    (arena.base + place).toNat = arena.base.toNat + place.toNat := by
  have fits := arena.block_fits
  rw [UInt64.toNat_add]
  exact Nat.mod_eq_of_lt (Nat.lt_of_le_of_lt (Nat.add_le_add_left inside _) fits)

/-! ## What is granted -/

/-- A granted request for `size` bytes at `align` starts at an aligned address after what was spoken
for, stops inside the block, and leaves the block where it is. -/
structure Grants (arena : Arena) (size align : UInt64) (start : Nat) (after : Arena) : Prop where
  proper : isPowerOfTwo align = true
  behind : arena.offset.toNat ≤ start
  aligned : (arena.base.toNat + start) % align.toNat = 0
  stop : after.offset.toNat = start + size.toNat
  base : after.base = arena.base
  capacity : after.capacity = arena.capacity

/-- What a request has been granted, if it was. -/
theorem grants_of_allocate {arena after : Arena} {size align address : UInt64}
    (granted : arena.allocate size align = .ok (address, after)) :
    arena.Grants size align (address - arena.base).toNat after := by
  obtain ⟨base, capacity⟩ := allocate_block granted
  unfold allocate at granted
  split at granted
  · rename_i proper
    split at granted
    · cases granted
    · rename_i start stop found
      obtain ⟨starts, stops⟩ := extent?_eq_some found
      split at granted
      · cases granted
        have aligned := padding_aligns (arena.base + arena.offset) proper
        rw [toNat_base_add arena arena.offset_le_capacity, Nat.add_assoc, ← starts] at aligned
        rw [UInt64.add_comm, UInt64.add_sub_cancel]
        exact ⟨proper, starts ▸ Nat.le_add_right .., aligned, stops, base, capacity⟩
      · cases granted
  · cases granted

/-! ## Blocks elsewhere -/

/-- Where the block stands does not matter for alignments that it has itself. -/
theorem padding_base_add (arena : Arena) {align : UInt64} (proper : isPowerOfTwo align = true)
    (shared : align.toNat ∣ 16) :
    padding (arena.base + arena.offset) align = padding arena.offset align := by
  have inside := arena.offset_le_capacity
  have fits := arena.block_fits
  have base : arena.base.toNat % align.toNat = 0 :=
    Nat.mod_eq_zero_of_dvd (Nat.dvd_trans shared (Nat.dvd_of_mod_eq_zero arena.base_aligned))
  have apart : UInt64.size - arena.offset.toNat =
      UInt64.size - (arena.base.toNat + arena.offset.toNat) + arena.base.toNat := by omega
  rw [← UInt64.toNat_inj, toNat_padding _ proper, toNat_padding _ proper,
    toNat_base_add arena inside, apart, Nat.add_mod, base, Nat.add_zero, Nat.mod_mod]

/-- Arenas of which as much is spoken for place a request alike, for alignments that blocks have
themselves. -/
theorem extent?_eq_of_offset {first second : Arena} (same : first.offset = second.offset)
    (size : UInt64) {align : UInt64} (proper : isPowerOfTwo align = true)
    (shared : align.toNat ∣ 16) : first.extent? size align = second.extent? size align := by
  rw [extent?, extent?, padding_base_add first proper shared, padding_base_add second proper shared,
    same]

/-- What one arena grants, every arena of at least its size grants of which as much is spoken for,
and then as much is spoken for of both. -/
theorem allocate_of_offset {first second after : Arena} (same : first.offset = second.offset)
    (larger : first.capacity ≤ second.capacity) {size align address : UInt64}
    (shared : align.toNat ∣ 16) (granted : first.allocate size align = .ok (address, after)) :
    ∃ address' after', second.allocate size align = .ok (address', after') ∧
      after.offset = after'.offset := by
  unfold allocate at granted
  split at granted
  · rename_i proper
    rw [extent?_eq_of_offset same size proper shared] at granted
    split at granted
    · cases granted
    · rename_i start stop found
      split at granted
      · rename_i fits
        cases granted
        rw [allocate, if_pos proper, found]
        simp only [dif_pos (UInt64.le_trans fits larger)]
        exact ⟨_, _, rfl, rfl⟩
      · cases granted
  · cases granted

/-- Only room can be missing for a request at a proper alignment. -/
theorem eq_exhausted_of_allocate {arena : Arena} {size align : UInt64} {problem : ArenaError}
    (proper : isPowerOfTwo align = true) (refused : arena.allocate size align = .error problem) :
    problem = .exhausted size align arena.remaining := by
  rw [allocate, if_pos proper] at refused
  split at refused
  · cases refused
    rfl
  · split at refused
    · cases refused
    · cases refused
      rfl

end Arena

end LispReader
