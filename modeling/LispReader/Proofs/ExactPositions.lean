import LispReader.Proofs.LinePositions

/-!
# Exact positions

A source has a line for each of its newlines and one more. The position of an offset is exact if its
line counts the newlines before the offset and its column the bytes from the start of this line,
both from one. Every offset has an exact position, but for the largest offset in two cases where one
of the two is no word any more: on the first line, and behind the longest source of nothing but
newlines. There it has no position at all. Exact positions are in the order of their offsets, and no
two offsets share a position.
-/

namespace LispReader

/-! ## Positions in a source -/

/-- Whether the line of an offset starts at `start`: this is the start of the source or follows a
newline, at or before the offset, and no newline stands in between. -/
structure LineStartsAt (source : List UInt8) (offset start : Nat) : Prop where
  le_offset : start ≤ offset
  opens : start = 0 ∨ source[start - 1]? = some Byte.newline
  unbroken : ∀ place, start ≤ place → place < offset → source[place]? ≠ some Byte.newline

namespace LineStartsAt

variable {source : List UInt8} {offset start other : Nat}

/-- The line of an offset does not start at a later place than it does. -/
theorem le (starts : LineStartsAt source offset start)
    (starts' : LineStartsAt source offset other) : other ≤ start := by
  refine Nat.le_of_not_lt fun later => ?_
  rcases starts'.opens with origin | newline
  · omega
  · have bound := starts'.le_offset
    exact starts.unbroken (other - 1) (by omega) (by omega) newline

/-- The line of an offset starts at one place. -/
theorem unique (starts : LineStartsAt source offset start)
    (starts' : LineStartsAt source offset other) : other = start :=
  Nat.le_antisymm (starts.le starts') (starts'.le starts)

end LineStartsAt

namespace Position

/-- Whether a position is that of an offset: the newlines before the offset and the bytes from the
start of its line, both counted from one. -/
structure IsExact (position : Position) (source : List UInt8) (offset : Nat) : Prop where
  line : position.line = (source.take offset).count Byte.newline + 1
  column : ∃ start, LineStartsAt source offset start ∧ position.column = offset - start + 1

/-- Whether a position comes before another: on an earlier line, or further left on the same. -/
def Precedes (position other : Position) : Prop :=
  position.line < other.line ∨ position.line = other.line ∧ position.column < other.column

/-- No two positions come before one another. -/
theorem Precedes.asymm {position other : Position} (before : position.Precedes other) :
    ¬ other.Precedes position := by
  rintro (line | ⟨line, column⟩) <;> rcases before with line' | ⟨line', column'⟩ <;> omega

/-- A position does not come before itself. -/
theorem Precedes.ne {position other : Position} (before : position.Precedes other) :
    position ≠ other := by
  rintro rfl
  exact before.asymm before

/-- No newline stands between two offsets with equally many before them. -/
theorem ne_newline_of_count {source : List UInt8} {earlier later place : Nat}
    (same : (source.take earlier).count Byte.newline = (source.take later).count Byte.newline)
    (behind : earlier ≤ place) (before : place < later) : source[place]? ≠ some Byte.newline := by
  intro newline
  have split : source.take later =
      source.take earlier ++ (source.drop earlier).take (later - earlier) := by
    rw [← List.take_add, Nat.add_sub_cancel' (by omega)]
  have member : Byte.newline ∈ (source.drop earlier).take (later - earlier) := by
    refine List.mem_of_getElem? (i := place - earlier) ?_
    rw [List.getElem?_take_of_lt (by omega), List.getElem?_drop, Nat.add_sub_cancel' behind]
    exact newline
  have some_there := List.count_pos_iff.mpr member
  rw [split, List.count_append] at same
  omega

/-- The exact position of an offset comes before that of a later one. -/
theorem IsExact.precedes {source : List UInt8} {earlier later : Nat} {position other : Position}
    (exact_ : position.IsExact source earlier) (exact' : other.IsExact source later)
    (before : earlier < later) : position.Precedes other := by
  obtain ⟨line, start, starts, column⟩ := exact_
  obtain ⟨line', start', starts', column'⟩ := exact'
  have fewer : (source.take earlier).count Byte.newline ≤
      (source.take later).count Byte.newline :=
    ((List.take_sublist_take_left (Nat.le_of_lt before)).count_le _)
  rcases Nat.lt_or_eq_of_le fewer with less | same
  · exact .inl (by omega)
  · -- No newline stands in between, so the later offset is on the line of the earlier one.
    have also : LineStartsAt source later start := by
      refine ⟨Nat.le_trans starts.le_offset (Nat.le_of_lt before), starts.opens,
        fun place inside front => ?_⟩
      rcases Nat.lt_or_ge place earlier with near | far
      · exact starts.unbroken place inside near
      · exact ne_newline_of_count same far front
    obtain rfl := also.unique starts'
    have bound := starts.le_offset
    exact .inr ⟨by omega, by omega⟩

end Position

namespace LineStarts

variable {source : List UInt8} {offset : Nat}

/-! ## Lines of a source -/

/-- Lines other than the first start behind the newlines, as far as these places are words. -/
theorem mem_startsAfter {start : Nat} {rest : List UInt8} :
    start ∈ startsAfter offset rest ↔ ∃ place, start = offset + place + 1 ∧
      rest[place]? = some Byte.newline ∧ start < UInt32.size := by
  induction rest generalizing offset with
  | nil => simp [startsAfter]
  | cons byte rest ih =>
    have parts : (∃ place, start = offset + place + 1 ∧
          (byte :: rest)[place]? = some Byte.newline ∧ start < UInt32.size) ↔
        (start = offset + 1 ∧ byte = Byte.newline ∧ start < UInt32.size) ∨
          start ∈ startsAfter (offset + 1) rest := by
      rw [ih]
      constructor
      · rintro ⟨place, same, newline, word⟩
        cases place with
        | zero => exact .inl ⟨same, Option.some.inj newline, word⟩
        | succ place => exact .inr ⟨place, by omega, newline, word⟩
      · rintro (⟨same, newline, word⟩ | ⟨place, same, newline, word⟩)
        · exact ⟨0, same, congrArg some newline, word⟩
        · exact ⟨place + 1, by omega, newline, word⟩
    rw [parts, startsAfter]
    split
    · rename_i newline
      split
      · rename_i word
        rw [List.mem_cons]
        refine or_congr_left ⟨fun same => ⟨same, beq_iff_eq.mp newline, ?_⟩, fun first => first.1⟩
        exact same ▸ word
      · rename_i none_left
        refine ⟨fun member => absurd member List.not_mem_nil, fun starts => ?_⟩
        rcases starts with ⟨rfl, -, word⟩ | later
        · exact absurd word none_left
        · have behind := lt_of_mem_startsAfter later
          obtain ⟨-, -, -, word⟩ := ih.mp later
          omega
    · rename_i other
      exact ⟨.inr, fun starts => starts.resolve_left fun first => other (beq_iff_eq.mpr first.2.1)⟩

/-- A source without newlines has the lines of the empty source. -/
theorem ofSource_of_not_mem (single : Byte.newline ∉ source) : ofSource source = ofSource [] := by
  have others : startsAfter 0 source = [] := by
    refine List.eq_nil_iff_forall_not_mem.mpr fun start member => ?_
    obtain ⟨place, -, newline, -⟩ := mem_startsAfter.mp member
    exact single (List.mem_of_getElem? newline)
  rw [ofSource, others]
  rfl

/-- As many lines follow the first as there are newlines. -/
theorem length_startsAfter {rest : List UInt8} (short : offset + rest.length < UInt32.size) :
    (startsAfter offset rest).length = rest.count Byte.newline := by
  have counted := countP_startsAfter offset short rest.length
  rw [List.take_length] at counted
  rw [← counted, List.countP_eq_length.mpr]
  intro start member
  obtain ⟨place, rfl, newline, -⟩ := mem_startsAfter.mp member
  have inside := (List.getElem?_eq_some_iff.mp newline).1
  exact decide_eq_true (by omega)

/-- A source has a line for each of its newlines and one more. -/
theorem lineCount_ofSource (short : source.length < UInt32.size) :
    (ofSource source).lineCount = source.count Byte.newline + 1 := by
  have others : (startsAfter 0 source).length = source.count Byte.newline :=
    length_startsAfter (by omega)
  exact congrArg (· + 1) others

/-- The last start that is not past an offset is that of its line. -/
theorem lineStartsAt_of_splits {line : Nat} (inside : line ≤ (ofSource source).starts.size)
    (splits : Splits (ofSource source).starts offset line line) (word : offset < UInt32.size) :
    LineStartsAt source offset ((ofSource source).starts.getD (line - 1) 0) := by
  have size : (ofSource source).starts.size = (startsAfter 0 source).length + 1 := rfl
  have positive : 0 < line := by
    refine Nat.pos_of_ne_zero fun none_in_front => ?_
    exact absurd (splits.above 0 (by omega) (by omega)) (Nat.not_lt_zero _)
  refine ⟨splits.below _ (by omega), ?_, fun place behind before newline => ?_⟩
  · cases others : line - 1 with
    | zero => exact .inl rfl
    | succ index =>
      have later : index < (startsAfter 0 source).length := by omega
      obtain ⟨place, start, newline, -⟩ := mem_startsAfter.mp (List.getElem_mem later)
      rw [getD_starts_succ later, start, Nat.zero_add, Nat.add_sub_cancel]
      exact .inr newline
  · -- The line behind that newline starts at the offset or before, so it is not a later one.
    have member : place + 1 ∈ startsAfter 0 source :=
      mem_startsAfter.mpr ⟨place, by omega, newline, by omega⟩
    obtain ⟨index, later, start⟩ := List.getElem_of_mem member
    have found := (getD_starts_succ later).trans start
    rcases Nat.lt_or_ge (index + 1) line with front | past
    · have ordered := ascending_ofSource source (index + 1) (line - 1) (by omega) (by omega)
      omega
    · have above := splits.above (index + 1) past (by omega)
      omega

/-- The line of every offset starts somewhere. The offset has the position of its line and of its
distance from there, if both are words. -/
theorem exists_position_eq (short : source.length < UInt32.size) (word : offset < UInt32.size) :
    ∃ start, LineStartsAt source offset start ∧ (ofSource source).position offset = (do
      return ⟨← word? ((source.take offset).count Byte.newline + 1),
        ← word? (offset - start + 1)⟩) := by
  obtain ⟨number, -⟩ := firstPast_ofSource short offset
  obtain ⟨inside, splits⟩ := splits_ofSource source offset
  refine ⟨_, lineStartsAt_of_splits inside splits word, ?_⟩
  rw [position_ofSource short, number]

/-! ## Exact positions -/

/-- Whether the position of an offset is out of reach of words: it is the largest offset, and on the
first line or behind the longest source of nothing but newlines. -/
def OutOfReach (source : List UInt8) (offset : Nat) : Prop :=
  offset = 4294967295 ∧
    (Byte.newline ∉ source ∨ source = List.replicate 4294967295 Byte.newline)

/-- The line of an offset is a word unless the longest source of nothing but newlines is in front of
it. -/
theorem line_lt_of_reach (short : source.length < UInt32.size) (word : offset < UInt32.size)
    (reach : ¬ OutOfReach source offset) :
    (source.take offset).count Byte.newline + 1 < UInt32.size := by
  have size : UInt32.size = 4294967296 := rfl
  have fewer : (source.take offset).count Byte.newline ≤ (source.take offset).length :=
    List.count_le_length
  have length := List.length_take (i := offset) (l := source)
  refine Nat.lt_of_not_le fun large => reach ⟨by omega, .inr ?_⟩
  have whole : source.take offset = source := List.take_of_length_le (by omega)
  rw [whole] at fewer large
  have all := List.count_eq_length.mp (show source.count Byte.newline = source.length by omega)
  exact List.eq_replicate_iff.mpr ⟨by omega, fun byte member => (all byte member).symm⟩

/-- The column of an offset is a word unless it is the largest on the first line. -/
theorem column_lt_of_reach (short : source.length < UInt32.size) (word : offset < UInt32.size)
    {start : Nat} (starts : LineStartsAt source offset start)
    (reach : ¬ OutOfReach source offset) : offset - start + 1 < UInt32.size := by
  have size : UInt32.size = 4294967296 := rfl
  refine Nat.lt_of_not_le fun large => reach ⟨by omega, .inl fun member => ?_⟩
  obtain ⟨place, inside, newline⟩ := List.getElem_of_mem member
  exact starts.unbroken place (by omega) (by omega) (List.getElem?_eq_some_iff.mpr ⟨_, newline⟩)

/-- An offset that is not out of reach has an exact position. -/
theorem exists_isExact_of_reach (short : source.length < UInt32.size) (word : offset < UInt32.size)
    (reach : ¬ OutOfReach source offset) :
    ∃ position, (ofSource source).position offset = some position ∧
      position.IsExact source offset := by
  obtain ⟨start, starts, position⟩ := exists_position_eq short word
  rw [word?_of_lt (line_lt_of_reach short word reach),
    word?_of_lt (column_lt_of_reach short word starts reach)] at position
  exact ⟨_, position, rfl, start, starts, rfl⟩

/-- An offset that is out of reach has no position: its column is no word, or its line. -/
theorem position_eq_none_of_outOfReach (short : source.length < UInt32.size)
    (word : offset < UInt32.size) (outside : OutOfReach source offset) :
    (ofSource source).position offset = none := by
  obtain ⟨start, starts, position⟩ := exists_position_eq short word
  rw [position]
  obtain ⟨rfl, single | only⟩ := outside
  · obtain rfl : start = 0 := by
      rcases starts.opens with origin | newline
      · exact origin
      · exact absurd (List.mem_of_getElem? newline) single
    have column : word? (4294967295 - 0 + 1) = none := word?_of_le (by decide)
    rw [column]
    cases word? ((source.take 4294967295).count Byte.newline + 1) <;> rfl
  · have line : word? ((source.take 4294967295).count Byte.newline + 1) = none := by
      rw [only, List.take_replicate, List.count_replicate_self, Nat.min_self]
      exact word?_of_le (by decide)
    rw [line]
    rfl

/-- The offsets without a position are those out of reach, and every position is exact. -/
theorem position_eq_none_iff (short : source.length < UInt32.size) (word : offset < UInt32.size) :
    ((ofSource source).position offset = none ↔ OutOfReach source offset) ∧
      ∀ position, (ofSource source).position offset = some position →
        position.IsExact source offset := by
  by_cases outside : OutOfReach source offset
  · have none_there := position_eq_none_of_outOfReach short word outside
    refine ⟨iff_of_true none_there outside, fun position found => ?_⟩
    cases none_there.symm.trans found
  · obtain ⟨position, found, exact_⟩ := exists_isExact_of_reach short word outside
    refine ⟨⟨fun none_there => ?_, fun out => absurd out outside⟩, fun other found' => ?_⟩
    · cases none_there.symm.trans found
    · cases found.symm.trans found'
      exact exact_

/-- Only the largest offset can be out of reach. -/
theorem not_outOfReach_of_lt {earlier later : Nat} (before : earlier < later)
    (word : later < UInt32.size) : ¬ OutOfReach source earlier := by
  rintro ⟨rfl, -⟩
  have size : UInt32.size = 4294967296 := rfl
  omega

/-- Offsets in order have positions in order, if the later is not out of reach. -/
theorem exists_precedes_of_lt {earlier later : Nat} (short : source.length < UInt32.size)
    (before : earlier < later) (word : later < UInt32.size) (reach : ¬ OutOfReach source later) :
    ∃ position other, (ofSource source).position earlier = some position ∧
      (ofSource source).position later = some other ∧ position.Precedes other := by
  obtain ⟨position, found, exact_⟩ :=
    exists_isExact_of_reach short (Nat.lt_trans before word) (not_outOfReach_of_lt before word)
  obtain ⟨other, found', exact'⟩ := exists_isExact_of_reach short word reach
  exact ⟨position, other, found, found', exact_.precedes exact' before⟩

/-- A source whose length is a word has as many lines as newlines and one more. The offsets without
a position are those that are out of reach, and every position is exact. An offset that is not out
of reach comes after all earlier ones. No two offsets have the same position. -/
theorem position_exact_iff (source : List UInt8) (short : source.length < UInt32.size) :
    let index := ofSource source
    index.lineCount = source.count Byte.newline + 1 ∧
      (∀ offset, offset < UInt32.size →
        (index.position offset = none ↔ OutOfReach source offset) ∧
          ∀ position, index.position offset = some position → position.IsExact source offset) ∧
      ∀ earlier later, earlier < later → later < UInt32.size →
        index.position earlier ≠ index.position later ∧
          (¬ OutOfReach source later → ∃ position other, index.position earlier = some position ∧
            index.position later = some other ∧ position.Precedes other) := by
  intro index
  refine ⟨lineCount_ofSource short, fun offset word => position_eq_none_iff short word,
    fun earlier later before word =>
      ⟨fun same => ?_, exists_precedes_of_lt short before word⟩⟩
  by_cases outside : OutOfReach source later
  · obtain ⟨position, found, -⟩ := exists_isExact_of_reach short (Nat.lt_trans before word)
      (not_outOfReach_of_lt before word)
    cases (found.symm.trans same).trans (position_eq_none_of_outOfReach short word outside)
  · obtain ⟨position, other, found, found', ordered⟩ :=
      exists_precedes_of_lt short before word outside
    exact ordered.ne (Option.some.inj ((found.symm.trans same).trans found'))

/-- Two lines, the second of them empty: each offset has an exact position, the largest included. -/
theorem position_exact_iff_two_lines :
    let source : List UInt8 := [0x61, Byte.newline]
    let index := ofSource source
    source.length < UInt32.size ∧ index.lineCount = 2 ∧
      (∃ position, index.position 4294967295 = some position ∧
        position.IsExact source 4294967295) ∧
      index.position 1 ≠ index.position 2 ∧
      ∃ position other, index.position 1 = some position ∧ index.position 2 = some other ∧
        position.Precedes other := by
  intro source index
  have short : source.length < UInt32.size := by decide
  have reach (offset : Nat) : ¬ OutOfReach source offset := by
    rintro ⟨-, none_there | all⟩
    · exact none_there (by decide)
    · have first := congrArg List.head? all
      rw [List.head?_replicate] at first
      cases first
  obtain ⟨count, positions, ordered⟩ := position_exact_iff source short
  obtain ⟨fails, exact_⟩ := positions 4294967295 (by decide)
  obtain ⟨position, found⟩ := Option.ne_none_iff_exists'.mp fun none_there =>
    reach _ (fails.mp none_there)
  obtain ⟨apart, precedes⟩ := ordered 1 2 (by decide) (by decide)
  exact ⟨short, count, ⟨position, found, exact_ position found⟩, apart, precedes (reach 2)⟩

/-- The largest offset has no position behind the longest source of newlines, though the source has
the line that starts there: its number is one more than the largest word. Neither has it a position
on the only line of a source, where its column is one more than the largest word. -/
theorem position_overflows_at_largest_offset :
    let source := List.replicate 4294967295 Byte.newline
    let index := ofSource source
    let single := ofSource [Byte.apostrophe]
    (source.length < UInt32.size ∧ index.lineCount = 4294967296 ∧
      LineStartsAt source 4294967295 4294967295 ∧
      (source.take 4294967295).count Byte.newline + 1 = 4294967296 ∧
      index.position 4294967294 = some ⟨4294967295, 1⟩ ∧ index.position 4294967295 = none) ∧
      single.position 4294967294 = some ⟨1, 4294967295⟩ ∧ single.position 4294967295 = none := by
  have length : (List.replicate 4294967295 Byte.newline).length < UInt32.size := by
    rw [List.length_replicate]
    decide
  have before_size : 4294967294 < UInt32.size := by decide
  have own (offset : Nat) (inside : offset ≤ 4294967295) :
      LineStartsAt (List.replicate 4294967295 Byte.newline) offset offset := by
    refine ⟨Nat.le_refl _, ?_, fun place behind before => absurd before (Nat.not_lt_of_le behind)⟩
    cases offset with
    | zero => exact .inl rfl
    | succ offset => exact .inr (List.getElem?_replicate_of_lt (by omega))
  have before : (ofSource (List.replicate 4294967295 Byte.newline)).position 4294967294 =
      some ⟨4294967295, 1⟩ := by
    obtain ⟨start, starts, position⟩ := exists_position_eq length before_size
    obtain rfl := (own 4294967294 (by decide)).unique starts
    rw [position, List.take_replicate, List.count_replicate_self, Nat.sub_self]
    rfl
  refine ⟨⟨length, ?_, own _ (Nat.le_refl _), ?_, before,
    position_eq_none_of_outOfReach length (by decide) ⟨rfl, .inr rfl⟩⟩, by cbv, by cbv⟩
  · rw [lineCount_ofSource length, List.count_replicate_self]
  · rw [List.take_replicate, List.count_replicate_self, Nat.min_self]

end LineStarts

end LispReader
