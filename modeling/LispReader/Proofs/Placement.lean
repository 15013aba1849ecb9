import LispReader.Proofs.Alignment

/-!
# Where requests are placed

An arena computes with words of 64 bits: addresses may wrap, an address is negated and masked to
find the padding, and the sums that could leave the range are checked. All the same it decides as if
there were no largest number. A request at a proper alignment is placed at the first aligned address
behind what is spoken for, and is granted exactly if it stops inside the block from there.
-/

namespace LispReader

namespace Arena

/-! ## The first place -/

/-- The first place of a block at `base` that is at least `offset` bytes into it and whose address
is a multiple of `align`. -/
structure FirstAligned (base offset align start : Nat) : Prop where
  behind : offset ≤ start
  aligned : align ∣ base + start
  least : ∀ place, offset ≤ place → align ∣ base + place → start ≤ place

/-- There is one first place. -/
theorem FirstAligned.unique {base offset align start start' : Nat}
    (first : FirstAligned base offset align start)
    (first' : FirstAligned base offset align start') : start = start' := by
  apply Nat.le_antisymm
  · exact first.least start' first'.behind first'.aligned
  · exact first'.least start first.behind first.aligned

/-- A proper alignment is positive. -/
theorem toNat_pos_of_isPowerOfTwo {align : UInt64} (proper : isPowerOfTwo align = true) :
    0 < align.toNat :=
  Nat.pos_of_isPowerOfTwo (isPowerOfTwo_iff.mp proper)

/-- The padding leads to the first place: it ends at a multiple of the alignment, and is less than
the alignment. -/
theorem firstAligned_padding (arena : Arena) {align : UInt64}
    (proper : isPowerOfTwo align = true) :
    FirstAligned arena.base.toNat arena.offset.toNat align.toNat
      (arena.offset.toNat + (padding (arena.base + arena.offset) align).toNat) := by
  have aligned := padding_aligns (arena.base + arena.offset) proper
  rw [toNat_base_add arena arena.offset_le_capacity, Nat.add_assoc] at aligned
  have multiple := Nat.dvd_of_mod_eq_zero aligned
  refine ⟨Nat.le_add_right _ _, multiple, fun place behind multiple' => ?_⟩
  apply Nat.le_of_not_lt
  intro earlier
  -- An earlier place would be less than the alignment away from this one.
  have apart := Nat.le_of_dvd (by omega) (Nat.dvd_sub multiple multiple')
  have positive := toNat_pos_of_isPowerOfTwo proper
  have near := padding_le (arena.base + arena.offset) align positive
  omega

/-- In a block that is aligned itself the first place for an alignment is the first multiple of it.
-/
theorem firstAligned_of_dvd {base align : Nat} (positive : 0 < align) (aligned : align ∣ base)
    (offset : Nat) :
    FirstAligned base offset align ((offset + align - 1) / align * align) := by
  have parts := Nat.div_add_mod (offset + align - 1) align
  have rest := Nat.mod_lt (offset + align - 1) positive
  rw [Nat.mul_comm] at parts
  refine ⟨by omega, Nat.dvd_add aligned (Nat.dvd_mul_left _ _), fun place behind multiple => ?_⟩
  obtain ⟨count, rfl⟩ := (Nat.dvd_add_right aligned).mp multiple
  rw [Nat.mul_comm align count] at behind ⊢
  apply Nat.mul_le_mul_right
  apply Nat.le_of_lt_succ
  rw [Nat.div_lt_iff_lt_mul positive, Nat.succ_mul]
  omega

/-! ## Decisions -/

/-- What an arena answers to a request for `size` bytes at `align`, in unbounded numbers. -/
inductive Decides (arena : Arena) (size align : UInt64) :
    Except ArenaError (UInt64 × Arena) → Prop where
  /-- The alignment is no power of two. -/
  | improper (odd : ¬ align.toNat.isPowerOfTwo) :
    Decides arena size align (.error (.badAlignment align))
  /-- The bytes stop inside the block if they start at the first place. -/
  | granted {start : Nat} {address : UInt64} {after : Arena} (power : align.toNat.isPowerOfTwo)
      (first : FirstAligned arena.base.toNat arena.offset.toNat align.toNat start)
      (fits : start + size.toNat ≤ arena.capacity.toNat)
      (placed : address.toNat = arena.base.toNat + start)
      (taken : after.offset.toNat = start + size.toNat) (base : after.base = arena.base)
      (capacity : after.capacity = arena.capacity) :
    Decides arena size align (.ok (address, after))
  /-- They stop behind it. -/
  | exhausted {start : Nat} (power : align.toNat.isPowerOfTwo)
      (first : FirstAligned arena.base.toNat arena.offset.toNat align.toNat start)
      (full : arena.capacity.toNat < start + size.toNat) :
    Decides arena size align (.error (.exhausted size align arena.remaining))

/-- Every answer is one of these. -/
theorem decides_allocate (arena : Arena) (size align : UInt64) :
    arena.Decides size align (arena.allocate size align) := by
  have inside := arena.block_fits
  by_cases proper : isPowerOfTwo align = true
  · have power := isPowerOfTwo_iff.mp proper
    have first := firstAligned_padding arena proper
    rw [allocate, if_pos proper]
    cases found : arena.extent? size align with
    | none =>
      -- The sum that was refused is no word, and so is larger than the block.
      have overflow := extent?_eq_none found
      exact .exhausted power first (by omega)
    | some extent =>
      obtain ⟨start, stop⟩ := extent
      obtain ⟨starts, stops⟩ := extent?_eq_some found
      rw [← starts] at first
      by_cases fits : stop ≤ arena.capacity
      · have bound := UInt64.le_iff_toNat_le.mp fits
        simp only [dif_pos fits]
        apply Decides.granted power first
        · exact Nat.le_trans (Nat.le_of_eq stops.symm) bound
        · exact toNat_base_add arena (by omega)
        · exact stops
        · rfl
        · rfl
      · simp only [dif_neg fits]
        rw [UInt64.le_iff_toNat_le] at fits
        exact .exhausted power first (by omega)
  · rw [allocate, if_neg proper]
    exact .improper fun power => proper (isPowerOfTwo_iff.mpr power)

/-- Bytes lie inside the block if they do so in unbounded numbers. -/
theorem contains_iff_toNat (arena : Arena) (address size : UInt64) :
    arena.contains address size = true ↔ arena.base.toNat ≤ address.toNat ∧
      address.toNat + size.toNat ≤ arena.base.toNat + arena.capacity.toNat := by
  have fits := arena.block_fits
  have stop := toNat_base_add arena (Nat.le_refl arena.capacity.toNat)
  rw [contains, Bool.and_eq_true, decide_eq_true_eq, UInt64.le_iff_toNat_le]
  apply and_congr_right
  intro behind
  cases found : checkedAdd? address size with
  | none =>
    have overflow := checkedAdd?_eq_none.mp found
    simp only [Bool.false_eq_true, false_iff]
    omega
  | some last =>
    have exact_sum := checkedAdd?_eq_some.mp found
    simp only [decide_eq_true_eq, UInt64.le_iff_toNat_le, stop, exact_sum]

/-- An arena decides in words of 64 bits as in unbounded numbers. A request is improper exactly if
its alignment is no power of two. Any other is placed at the least `start` that is not before the
offset and has an aligned address: it is granted, with that address, exactly if its bytes stop
inside the block from there, and is refused for want of room otherwise. Bytes lie inside the block
exactly if both their ends do. The address of the offset and the end of the block are not wrapped,
and there are no more bytes spoken for than there are. -/
theorem allocate_eq_unbounded (arena : Arena) (size align : UInt64) :
    let base := arena.base.toNat
    let offset := arena.offset.toNat
    let capacity := arena.capacity.toNat
    (arena.allocate size align = .error (.badAlignment align) ↔ ¬ align.toNat.isPowerOfTwo) ∧
      (align.toNat.isPowerOfTwo →
        ∃ start, FirstAligned base offset align.toNat start ∧
          (start + size.toNat ≤ capacity →
            ∃ address after, arena.allocate size align = .ok (address, after) ∧
              address.toNat = base + start ∧ after.offset.toNat = start + size.toNat ∧
              after.base = arena.base ∧ after.capacity = arena.capacity) ∧
          (capacity < start + size.toNat →
            ∃ remaining, arena.allocate size align = .error (.exhausted size align remaining) ∧
              remaining.toNat = capacity - offset)) ∧
      (∀ address, arena.contains address size = true ↔
        base ≤ address.toNat ∧ address.toNat + size.toNat ≤ base + capacity) ∧
      (arena.base + arena.offset).toNat = base + offset ∧
      (arena.base + arena.capacity).toNat = base + capacity ∧ offset ≤ capacity := by
  intro base offset capacity
  refine ⟨?_, ?_, fun address => arena.contains_iff_toNat address size,
    toNat_base_add arena arena.offset_le_capacity, toNat_base_add arena (Nat.le_refl _),
    arena.offset_le_capacity⟩
  · have decides := decides_allocate arena size align
    generalize arena.allocate size align = answer at decides
    cases decides with
    | improper odd => exact iff_of_true rfl odd
    | granted power | exhausted power =>
      refine iff_of_false (fun same => ?_) (not_not_intro power)
      cases same
  · intro power
    have decides := decides_allocate arena size align
    generalize arena.allocate size align = answer at decides
    cases decides with
    | improper odd => exact absurd power odd
    | granted _ first fits placed taken sameBase sameCapacity =>
      exact ⟨_, first, fun _ => ⟨_, _, rfl, placed, taken, sameBase, sameCapacity⟩,
        fun full => absurd fits (Nat.not_le_of_lt full)⟩
    | exhausted _ first full =>
      exact ⟨_, first, fun fits => absurd fits (Nat.not_le_of_lt full),
        fun _ => ⟨_, rfl, toNat_remaining arena⟩⟩

/-- Behind five bytes the first place for an alignment of 64 is 64 bytes into a block at a page. The
largest request at the largest alignment is refused. -/
theorem allocate_eq_unbounded_page :
    let arena : Arena := ⟨blockAddress, 256, 5, by decide, by decide, by decide⟩
    (64 : UInt64).toNat.isPowerOfTwo ∧ (0x8000000000000000 : UInt64).toNat.isPowerOfTwo ∧
      (∃ address after, arena.allocate 8 64 = .ok (address, after) ∧
        address.toNat = blockAddress.toNat + 64 ∧ after.offset.toNat = 72) ∧
      ∃ remaining, arena.allocate 0xFFFFFFFFFFFFFFFF 0x8000000000000000 =
          .error (.exhausted 0xFFFFFFFFFFFFFFFF 0x8000000000000000 remaining) ∧
        remaining.toNat = 251 := by
  intro arena
  have small : (64 : UInt64).toNat.isPowerOfTwo := ⟨6, rfl⟩
  have large : (0x8000000000000000 : UInt64).toNat.isPowerOfTwo := ⟨63, rfl⟩
  refine ⟨small, large, ?_, ?_⟩
  · obtain ⟨start, first, granted, -⟩ := (allocate_eq_unbounded arena 8 64).2.1 small
    have sixty_four : FirstAligned arena.base.toNat arena.offset.toNat (64 : UInt64).toNat 64 := by
      refine ⟨by decide, by decide, fun place behind aligned => ?_⟩
      change 5 ≤ place at behind
      change 64 ∣ 0x400000000000 + place at aligned
      omega
    obtain rfl := first.unique sixty_four
    obtain ⟨address, after, same, placed, taken, -⟩ := granted (by decide)
    exact ⟨address, after, same, placed, taken⟩
  · obtain ⟨start, first, -, refused⟩ :=
      (allocate_eq_unbounded arena 0xFFFFFFFFFFFFFFFF 0x8000000000000000).2.1 large
    have behind : 5 ≤ start := first.behind
    obtain ⟨remaining, same, left⟩ := refused (by
      change 256 < start + 0xFFFFFFFFFFFFFFFF
      omega)
    exact ⟨remaining, same, left⟩

end Arena

end LispReader
