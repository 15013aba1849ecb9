/-!
# Windows over fixed storage

A window is the live part of a fixed number of slots. Values are appended behind it and taken from
its front, so it only ever moves towards the end of the storage; taking values frees no room, and
only a reset starts again at the first slot. What lies outside the window is never seen.
-/

namespace LispReader

/-- The slots from `start` up to, and not including, `stop` of a fixed storage. -/
structure Window (α : Type) where
  slots : Array α
  start : Nat
  stop : Nat
  start_le_stop : start ≤ stop
  stop_le_size : stop ≤ slots.size

namespace Window

variable {α : Type}

/-- The largest number of slots that a window uses: positions in it are words of 32 bits. -/
def maxCapacity : Nat := UInt32.size - 1

/-- An empty window over `storage`. Slots past `maxCapacity` are left unused. -/
def ofStorage (storage : Array α) : Window α :=
  ⟨storage.take maxCapacity, 0, 0, Nat.le_refl 0, Nat.zero_le _⟩

/-- The number of slots. -/
def capacity (window : Window α) : Nat := window.slots.size

/-- The number of live values. -/
def length (window : Window α) : Nat := window.stop - window.start

/-- Whether no value is live. -/
def isEmpty (window : Window α) : Bool := window.start == window.stop

/-- The number of slots behind the window. -/
def room (window : Window α) : Nat := window.capacity - window.stop

/-- Whether no slot is left behind the window. -/
def isFull (window : Window α) : Bool := window.stop == window.capacity

/-- The live values, front first. -/
def toList (window : Window α) : List α :=
  (window.slots.toList.drop window.start).take window.length

/-- The live value at the front. -/
def front? (window : Window α) : Option α :=
  if inside : window.start < window.stop then
    have bound := Nat.lt_of_lt_of_le inside window.stop_le_size
    some window.slots[window.start]
  else none

/-- Appends a value behind the window, or hands it back if there is no room. -/
def push (window : Window α) (value : α) : Except α (Window α) :=
  match window with
  | ⟨slots, start, stop, start_le_stop, _⟩ =>
    if room : stop < slots.size then
      .ok ⟨slots.set stop value room, start, stop + 1, Nat.le_succ_of_le start_le_stop,
        by rw [Array.size_set]; exact room⟩
    else .error value

/-- Drops up to `count` values from the front, and says how many were dropped. -/
def consume (window : Window α) (count : Nat) : Nat × Window α :=
  let dropped := min count window.length
  (dropped, { window with
    start := window.start + dropped
    start_le_stop := by
      have := window.start_le_stop
      have : dropped ≤ window.stop - window.start := Nat.min_le_right _ _
      omega })

/-- Takes the value at the front. -/
def pop? (window : Window α) : Option (α × Window α) :=
  if inside : window.start < window.stop then
    have bound := Nat.lt_of_lt_of_le inside window.stop_le_size
    some (window.slots[window.start],
      { window with start := window.start + 1, start_le_stop := inside })
  else none

/-- The empty window at the first slot of the same storage. -/
def reset (window : Window α) : Window α :=
  { window with
    start := 0
    stop := 0
    start_le_stop := Nat.le_refl 0
    stop_le_size := Nat.zero_le _ }

/-! ## The values of a window -/

/-- A window lists as many values as it holds. -/
@[simp] theorem length_toList (window : Window α) : window.toList.length = window.length := by
  have := window.stop_le_size
  simp only [toList, length, List.length_take, List.length_drop, Array.length_toList]
  omega

/-- A reset window is empty. -/
@[simp] theorem toList_reset (window : Window α) : window.reset.toList = [] := rfl

/-- A reset window has no length. -/
@[simp] theorem length_reset (window : Window α) : window.reset.length = 0 := rfl

/-- An accepted value is listed after those before it. -/
theorem toList_push {window extended : Window α} {value : α}
    (accepted : window.push value = .ok extended) :
    extended.toList = window.toList ++ [value] := by
  obtain ⟨slots, start, stop, start_le_stop, stop_le_size⟩ := window
  simp only [push] at accepted
  split at accepted
  · rename_i room
    cases accepted
    have grown : stop + 1 - start = (stop - start) + 1 := by omega
    have last : start + (stop - start) = stop := by omega
    simp only [toList, length, Array.toList_set, grown, List.take_add_one, List.getElem?_drop, last]
    rw [List.getElem?_set_self (by rw [Array.length_toList]; exact room), List.drop_set,
      if_neg (by omega), List.take_set_of_le (Nat.le_refl _)]
    rfl
  · cases accepted

/-- An accepted value makes the window one longer. -/
theorem length_push {window extended : Window α} {value : α}
    (accepted : window.push value = .ok extended) : extended.length = window.length + 1 := by
  rw [← length_toList, toList_push accepted, List.length_append, length_toList]
  rfl

/-- A value is handed back exactly when there is no room for it. -/
theorem push_eq_error {window : Window α} {value back : α} :
    window.push value = .error back ↔ window.stop = window.capacity ∧ back = value := by
  have bound := window.stop_le_size
  obtain ⟨slots, start, stop, start_le_stop, stop_le_size⟩ := window
  simp only [push, capacity]
  split
  · simp only [reduceCtorEq, false_iff]
    omega
  · simp only [Except.error.injEq]
    constructor
    · intro same
      exact ⟨by omega, same.symm⟩
    · intro same
      exact same.2.symm

/-- The front value is the first that is listed. -/
theorem front?_eq_head? (window : Window α) : window.front? = window.toList.head? := by
  have := window.stop_le_size
  unfold front? toList length
  split
  · rename_i inside
    rw [List.head?_take, if_neg (by omega), List.head?_drop, Array.getElem?_toList]
    exact (Array.getElem?_eq_getElem _).symm
  · rename_i outside
    rw [show window.stop - window.start = 0 by omega]
    rfl

/-- The front value is the one that can be taken. -/
theorem front?_eq_pop? (window : Window α) : window.front? = window.pop?.map Prod.fst := by
  simp only [front?, pop?]
  split <;> rfl

/-- Dropping values drops the first that are listed. -/
theorem toList_consume (window : Window α) (count : Nat) :
    (window.consume count).2.toList = window.toList.drop count := by
  have := window.start_le_stop
  have := window.stop_le_size
  simp only [consume, toList, length]
  rw [List.drop_take, List.drop_drop]
  rcases Nat.le_total count (window.stop - window.start) with small | large
  · rw [Nat.min_eq_left small, Nat.sub_add_eq]
  · have none_left : window.stop - (window.start + (window.stop - window.start)) = 0 := by omega
    rw [Nat.min_eq_right large, none_left, Nat.sub_eq_zero_of_le large]
    rfl

/-- Taking a value takes the first that is listed. -/
theorem toList_pop? {window rest : Window α} {value : α}
    (taken : window.pop? = some (value, rest)) : window.toList = value :: rest.toList := by
  have bound := window.stop_le_size
  simp only [pop?] at taken
  split at taken
  · rename_i inside
    cases taken
    simp only [toList, length]
    rw [List.drop_eq_getElem_cons (by rw [Array.length_toList]; omega),
      show window.stop - window.start = (window.stop - (window.start + 1)) + 1 by omega]
    rfl
  · cases taken

/-- Taking the front value makes the window one shorter. -/
theorem length_pop? {window rest : Window α} {value : α}
    (taken : window.pop? = some (value, rest)) : rest.length + 1 = window.length := by
  rw [← length_toList window, toList_pop? taken, List.length_cons, length_toList]

/-! ## The room of a window -/

/-- A window with room is not full. -/
theorem isFull_eq_false {window : Window α} : window.isFull = false ↔ 0 < window.room := by
  have := window.stop_le_size
  simp only [isFull, room, capacity, beq_eq_false_iff_ne]
  omega

/-- An accepted value takes one slot of the room and leaves the front where it was. -/
theorem room_push {window extended : Window α} {value : α}
    (accepted : window.push value = .ok extended) :
    window.room = extended.room + 1 ∧ extended.start = window.start ∧
      extended.capacity = window.capacity := by
  obtain ⟨slots, start, stop, start_le_stop, stop_le_size⟩ := window
  simp only [push] at accepted
  split at accepted
  · cases accepted
    refine ⟨?_, rfl, ?_⟩
    · simp only [room, capacity, Array.size_set]
      omega
    · simp only [capacity, Array.size_set]
  · cases accepted

/-- A window that is not full hands no value back. -/
theorem push_ne_error {window : Window α} {value back : α} (free : ¬ window.isFull = true) :
    window.push value ≠ .error back :=
  fun refused => free (beq_iff_eq.mpr (push_eq_error.mp refused).1)

/-- Resetting makes room of the whole storage. -/
@[simp] theorem room_reset (window : Window α) : window.reset.room = window.capacity := rfl

/-- Resetting keeps the storage. -/
@[simp] theorem capacity_reset (window : Window α) : window.reset.capacity = window.capacity := rfl

/-- Taking a value keeps the storage. -/
theorem capacity_pop? {window rest : Window α} {value : α}
    (taken : window.pop? = some (value, rest)) : rest.capacity = window.capacity := by
  simp only [pop?] at taken
  split at taken
  · cases taken
    rfl
  · cases taken

/-- A value can be taken exactly when one is listed. -/
theorem pop?_of_toList {window : Window α} {value : α} {values : List α}
    (listed : window.toList = value :: values) :
    ∃ rest, window.pop? = some (value, rest) ∧ rest.toList = values := by
  cases taken : window.pop? with
  | none =>
    have empty : window.length = 0 := by
      simp only [pop?] at taken
      split at taken
      · cases taken
      · rename_i outside
        simp only [length]
        omega
    rw [← length_toList, listed] at empty
    cases empty
  | some pair =>
    obtain ⟨front, rest⟩ := pair
    have same := (toList_pop? taken).symm.trans listed
    cases same
    exact ⟨rest, rfl, rfl⟩

end Window

end LispReader
