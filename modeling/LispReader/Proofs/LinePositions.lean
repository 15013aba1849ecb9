import LispReader.Position

/-!
# Lines found by bisection

The starts of the lines of a source ascend from zero. So bisection stops at the one place that has
the starts up to an offset in front of it and those past the offset behind it, and there are as many
in front as there are newlines before the offset, and one more. The line of the offset starts at the
last of them, which is the start of the source exactly if there is no newline before the offset. So
nothing but a line or a column that is no word leaves an offset of a source without a position.
-/

namespace LispReader

namespace LineStarts

/-! ## Bisection -/

/-- Whether the starts in front of `low` are at most `offset`, and those from `high` on past it. -/
structure Splits (starts : Array Nat) (offset low high : Nat) : Prop where
  below : ∀ place < low, starts.getD place 0 ≤ offset
  above : ∀ place, high ≤ place → place < starts.size → offset < starts.getD place 0

/-- Bisection of ascending starts ends where they go past the offset. -/
theorem splits_firstPast {starts : Array Nat} {offset low high : Nat}
    (ascending : ∀ earlier later, earlier ≤ later → later < starts.size →
      starts.getD earlier 0 ≤ starts.getD later 0)
    (ordered : low ≤ high) (inside : high ≤ starts.size) (splits : Splits starts offset low high) :
    firstPast starts offset low high ≤ starts.size ∧
      Splits starts offset (firstPast starts offset low high)
        (firstPast starts offset low high) := by
  fun_induction firstPast starts offset low high with
  | case1 low high open_range middle reached ih =>
    have between : middle < high := by omega
    refine ih (by omega) inside ⟨fun place front => ?_, splits.above⟩
    exact Nat.le_trans (ascending place middle (by omega) (by omega)) reached
  | case2 low high open_range middle past ih =>
    have between : low ≤ middle ∧ middle < high := by omega
    refine ih between.1 (by omega) ⟨splits.below, fun place behind inside' => ?_⟩
    exact Nat.lt_of_lt_of_le (Nat.lt_of_not_le past) (ascending middle place behind inside')
  | case3 low high closed =>
    obtain rfl : low = high := by omega
    exact ⟨inside, splits⟩

/-! ## Starts of lines -/

/-- Later lines start behind the newlines before them. -/
theorem lt_of_mem_startsAfter {offset start : Nat} {rest : List UInt8}
    (member : start ∈ startsAfter offset rest) : offset < start := by
  induction rest generalizing offset with
  | nil => cases member
  | cons byte rest ih =>
    simp only [startsAfter] at member
    split at member
    · split at member
      · rcases List.mem_cons.mp member with rfl | later
        · exact Nat.lt_succ_self offset
        · exact Nat.lt_of_succ_lt (ih later)
      · cases member
    · exact Nat.lt_of_succ_lt (ih member)

/-- The starts of later lines ascend. -/
theorem pairwise_startsAfter (offset : Nat) (rest : List UInt8) :
    (startsAfter offset rest).Pairwise (· < ·) := by
  induction rest generalizing offset with
  | nil => exact .nil
  | cons byte rest ih =>
    simp only [startsAfter]
    split
    · split
      · exact .cons (fun _ => lt_of_mem_startsAfter) (ih _)
      · exact .nil
    · exact ih _

/-- As many lines start up to a target as there are newlines before it. -/
theorem countP_startsAfter (offset : Nat) {rest : List UInt8}
    (short : offset + rest.length < UInt32.size) (distance : Nat) :
    (startsAfter offset rest).countP (· ≤ offset + distance) =
      (rest.take distance).count Byte.newline := by
  induction rest generalizing offset distance with
  | nil =>
    rw [List.take_nil]
    rfl
  | cons byte rest ih =>
    rw [List.length_cons] at short
    have others := ih (offset + 1) (by omega)
    cases distance with
    | zero =>
      rw [List.take_zero, List.count_nil, List.countP_eq_zero]
      intro start member
      have behind := lt_of_mem_startsAfter member
      simp only [decide_eq_true_eq]
      omega
    | succ distance =>
      have same : offset + (distance + 1) = offset + 1 + distance := by omega
      rw [List.take_succ_cons, List.count_cons, startsAfter, same, ← others distance]
      split
      · rw [if_pos (by omega), List.countP_cons_of_pos (by simp)]
      · rfl

/-- The starts of the lines of a source ascend. -/
theorem ascending_ofSource (source : List UInt8) (earlier later : Nat) (ordered : earlier ≤ later)
    (inside : later < (ofSource source).starts.size) :
    (ofSource source).starts.getD earlier 0 ≤ (ofSource source).starts.getD later 0 := by
  have pairs : (0 :: startsAfter 0 source).Pairwise (· < ·) :=
    .cons (fun _ => lt_of_mem_startsAfter) (pairwise_startsAfter 0 source)
  rcases Nat.eq_or_lt_of_le ordered with rfl | before
  · exact Nat.le_refl _
  · have inside' : earlier < (ofSource source).starts.size := Nat.lt_trans before inside
    have related := List.pairwise_iff_getElem.mp pairs earlier later inside' inside before
    simp only [Array.getD_eq_getD_getElem?, Array.getElem?_eq_getElem inside,
      Array.getElem?_eq_getElem inside', Option.getD_some]
    exact Nat.le_of_lt related

/-- The starts of later lines come behind that of the first. -/
theorem getD_starts_succ {source : List UInt8} {index : Nat}
    (inside : index < (startsAfter 0 source).length) :
    (ofSource source).starts.getD (index + 1) 0 = (startsAfter 0 source)[index] := by
  simp only [ofSource, Array.getD_eq_getD_getElem?, List.getElem?_toArray,
    List.getElem?_cons_succ, List.getElem?_eq_getElem inside, Option.getD_some]

/-- A row that is split at a place has as many elements up to the offset as there are in front. -/
theorem Splits.countP_eq {starts : List Nat} {offset place : Nat}
    (splits : Splits starts.toArray offset place place) (inside : place ≤ starts.length) :
    starts.countP (· ≤ offset) = place := by
  have front : (starts.take place).countP (· ≤ offset) = place := by
    rw [List.countP_eq_length.mpr, List.length_take, Nat.min_eq_left inside]
    intro start member
    obtain ⟨index, bound, rfl⟩ := List.getElem_of_mem member
    rw [List.length_take] at bound
    have below := splits.below index (by omega)
    simp only [Array.getD_eq_getD_getElem?, List.getElem?_toArray,
      List.getElem?_eq_getElem (show index < starts.length by omega), Option.getD_some] at below
    rw [List.getElem_take]
    exact decide_eq_true below
  have back : (starts.drop place).countP (· ≤ offset) = 0 := by
    rw [List.countP_eq_zero]
    intro start member
    obtain ⟨index, bound, rfl⟩ := List.getElem_of_mem member
    rw [List.length_drop] at bound
    have above := splits.above (place + index) (by omega) (by simpa using by omega)
    simp only [Array.getD_eq_getD_getElem?, List.getElem?_toArray,
      List.getElem?_eq_getElem (show place + index < starts.length by omega),
      Option.getD_some] at above
    rw [List.getElem_drop, decide_eq_true_eq]
    omega
  rw [← List.take_append_drop place starts, List.countP_append, front, back, Nat.add_zero]

/-- Bisection of the starts of a source splits them at the offset. -/
theorem splits_ofSource (source : List UInt8) (offset : Nat) :
    let starts := (ofSource source).starts
    let line := firstPast starts offset 0 starts.size
    line ≤ starts.size ∧ Splits starts offset line line :=
  splits_firstPast (ascending_ofSource source) (Nat.zero_le _) (Nat.le_refl _)
    ⟨fun _ front => absurd front (Nat.not_lt_zero _),
      fun _ behind inside => absurd inside (Nat.not_lt_of_le behind)⟩

/-- The line of an offset is one more than the newlines before it. It starts at or before the
offset, and at the start of the source exactly if it is the first. -/
theorem firstPast_ofSource {source : List UInt8} (short : source.length < UInt32.size)
    (offset : Nat) :
    let starts := (ofSource source).starts
    let line := firstPast starts offset 0 starts.size
    line = (source.take offset).count Byte.newline + 1 ∧ line ≤ starts.size ∧
      starts.getD (line - 1) 0 ≤ offset ∧ (starts.getD (line - 1) 0 = 0 ↔ line = 1) := by
  intro starts line
  obtain ⟨inside, splits⟩ : line ≤ starts.size ∧ Splits starts offset line line :=
    splits_ofSource source offset
  have number : line = (source.take offset).count Byte.newline + 1 := by
    have counted : (0 :: startsAfter 0 source).countP (· ≤ offset) = line :=
      Splits.countP_eq splits inside
    have behind : (startsAfter 0 source).countP (· ≤ 0 + offset) = _ :=
      countP_startsAfter 0 (by omega) offset
    rw [Nat.zero_add] at behind
    rw [← counted, ← behind, List.countP_cons_of_pos (by simp)]
  refine ⟨number, inside, splits.below _ (by omega), ?_⟩
  rw [number, Nat.add_sub_cancel]
  cases others : (source.take offset).count Byte.newline with
  | zero => exact ⟨fun _ => rfl, fun _ => rfl⟩
  | succ count =>
    have later : count < (startsAfter 0 source).length := by
      have size : starts.size = (startsAfter 0 source).length + 1 := rfl
      omega
    have positive := lt_of_mem_startsAfter (List.getElem_mem later)
    have start : starts.getD (count + 1) 0 = (startsAfter 0 source)[count] :=
      getD_starts_succ later
    rw [start]
    omega

/-- The line of an offset and its distance from where this starts are counted from one, if both are
words then. -/
theorem position_ofSource {source : List UInt8} (short : source.length < UInt32.size)
    (offset : Nat) :
    let starts := (ofSource source).starts
    let line := firstPast starts offset 0 starts.size
    (ofSource source).position offset =
      (do return ⟨← word? line, ← word? (offset - starts.getD (line - 1) 0 + 1)⟩) := by
  intro starts line
  obtain ⟨number, inside, reached, -⟩ : line = (source.take offset).count Byte.newline + 1 ∧
    line ≤ starts.size ∧ starts.getD (line - 1) 0 ≤ offset ∧ _ := firstPast_ofSource short offset
  have place : line - 1 < starts.size := by omega
  have start : starts.getD (line - 1) 0 = starts[line - 1] := by
    rw [Array.getD_eq_getD_getElem?, Array.getElem?_eq_getElem place, Option.getD_some]
  have shown : (ofSource source).position offset = (do
      let start ← starts[line - 1]?
      if offset < start then none
      else return ⟨← word? line, ← word? (offset - start + 1)⟩) := rfl
  rw [shown, Array.getElem?_eq_getElem place, start]
  exact if_neg (Nat.not_lt_of_le (start ▸ reached))

end LineStarts

end LispReader
