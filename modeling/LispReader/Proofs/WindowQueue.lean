import LispReader.Window

/-!
# Windows as queues

Operated in any order, a window behaves like a queue with a quota: first in, first out, and between
two resets it accepts as many values as the window has slots, whether or not values have left in the
meantime. The window starts at as many slots as values have left since the last reset and stops at
as many as have been accepted, so what a slot still holds from earlier is never seen again. Every
value that is accepted at all leaves once, in order, or is still waiting.
-/

namespace LispReader

namespace Window

variable {α State : Type}

/-! ## Operations -/

/-- What a window is asked to do. -/
inductive Operation (α : Type) where
  | push (value : α)
  | pop
  | consume (count : Nat)
  | reset

/-- What comes back from an operation. -/
inductive Answer (α : Type) where
  | accepted
  | refused (value : α)
  | popped (value : Option α)
  | consumed (count : Nat)
  | restarted

/-- Performs operations one after the other. The answers are given in order, with the last state. -/
def Operation.runAll (perform : State → Operation α → Answer α × State) (state : State) :
    List (Operation α) → List (Answer α) × State
  | [] => ([], state)
  | operation :: rest =>
    let (answer, state) := perform state operation
    let (answers, state) := runAll perform state rest
    (answer :: answers, state)

/-- Performs an operation on a window, which a refused value leaves as it is. -/
def perform (window : Window α) : Operation α → Answer α × Window α
  | .push value =>
    match window.push value with
    | .ok extended => (.accepted, extended)
    | .error back => (.refused back, window)
  | .pop =>
    match window.pop? with
    | some (value, rest) => (.popped (some value), rest)
    | none => (.popped none, window)
  | .consume count =>
    let (dropped, rest) := window.consume count
    (.consumed dropped, rest)
  | .reset => (.restarted, window.reset)

/-- A window over some storage has as many slots as it can use. -/
theorem capacity_ofStorage (storage : Array α) :
    (ofStorage storage).capacity = min storage.size maxCapacity := by
  simp only [ofStorage, capacity, Array.take_eq_extract, Array.size_extract]
  omega

/-- A value is accepted exactly when there is room for it. -/
theorem exists_push_eq_ok {window : Window α} {value : α} :
    (∃ extended, window.push value = .ok extended) ↔ window.stop < window.capacity := by
  have inside := window.stop_le_size
  have full := @push_eq_error α window value value
  cases pushed : window.push value with
  | ok extended =>
    rw [pushed] at full
    simp only [reduceCtorEq, false_iff, not_and, not_true, imp_false] at full
    exact ⟨fun _ => Nat.lt_of_le_of_ne inside full, fun _ => ⟨extended, rfl⟩⟩
  | error back =>
    obtain ⟨filled, rfl⟩ := push_eq_error.mp pushed
    exact ⟨fun ⟨_, other⟩ => (nomatch other), fun free => absurd filled (Nat.ne_of_lt free)⟩

/-- An accepted value moves the end of a window by one slot. -/
theorem stop_push {window extended : Window α} {value : α}
    (accepted : window.push value = .ok extended) : extended.stop = window.stop + 1 := by
  obtain ⟨slots, start, stop, start_le_stop, stop_le_size⟩ := window
  simp only [push] at accepted
  split at accepted
  · cases accepted
    rfl
  · cases accepted

/-- A value that is taken moves the start of a window by one slot and leaves the end. -/
theorem start_pop? {window rest : Window α} {value : α}
    (taken : window.pop? = some (value, rest)) :
    rest.start = window.start + 1 ∧ rest.stop = window.stop := by
  simp only [pop?] at taken
  split at taken
  · cases taken
    exact ⟨rfl, rfl⟩
  · cases taken

/-- Only an empty window has no value to take. -/
theorem toList_of_pop?_eq_none {window : Window α} (nothing : window.pop? = none) :
    window.toList = [] := by
  have first := front?_eq_pop? window
  rw [nothing, front?_eq_head?] at first
  exact List.head?_eq_none_iff.mp first

end Window

/-! ## Queues with a quota -/

variable {α : Type}

/-- A queue that accepts no more than `quota` values between two resets. It keeps the values that it
has accepted since the last reset, and the number of those that have left. -/
structure QuotaQueue (α : Type) where
  quota : Nat
  accepted : List α
  gone : Nat

namespace QuotaQueue

/-- A queue that has accepted nothing. -/
def fresh (quota : Nat) : QuotaQueue α := ⟨quota, [], 0⟩

/-- The values that have not left, in the order in which they came. -/
def waiting (queue : QuotaQueue α) : List α := queue.accepted.drop queue.gone

/-- Performs an operation on a queue. -/
def perform (queue : QuotaQueue α) : Window.Operation α → Window.Answer α × QuotaQueue α
  | .push value =>
    if queue.accepted.length < queue.quota then
      (.accepted, { queue with accepted := queue.accepted ++ [value] })
    else (.refused value, queue)
  | .pop =>
    match queue.waiting with
    | [] => (.popped none, queue)
    | value :: _ => (.popped (some value), { queue with gone := queue.gone + 1 })
  | .consume count =>
    let dropped := min count queue.waiting.length
    (.consumed dropped, { queue with gone := queue.gone + dropped })
  | .reset => (.restarted, fresh queue.quota)

/-- No operation changes the quota. -/
theorem quota_perform (queue : QuotaQueue α) (operation : Window.Operation α) :
    (queue.perform operation).2.quota = queue.quota := by
  cases operation with
  | push value =>
    rw [perform]
    split <;> rfl
  | pop =>
    rw [perform]
    split <;> rfl
  | consume count => rfl
  | reset => rfl

/-- No operations change the quota. -/
theorem quota_runAll (queue : QuotaQueue α) (operations : List (Window.Operation α)) :
    (Window.Operation.runAll perform queue operations).2.quota = queue.quota := by
  induction operations generalizing queue with
  | nil => rfl
  | cons operation rest ih => exact (ih _).trans (queue.quota_perform operation)

end QuotaQueue

namespace Window

/-! ## A window that shows a queue -/

/-- A window whose slots and live values are those that a queue says. -/
structure Shows (window : Window α) (queue : QuotaQueue α) : Prop where
  capacity : window.capacity = queue.quota
  start : window.start = queue.gone
  stop : window.stop = queue.accepted.length
  toList : window.toList = queue.waiting

variable {window : Window α} {queue : QuotaQueue α}

/-- A window over some storage shows a fresh queue. -/
theorem shows_ofStorage (storage : Array α) :
    (ofStorage storage).Shows (.fresh (min storage.size maxCapacity)) :=
  ⟨capacity_ofStorage storage, rfl, rfl, rfl⟩

/-- A window accepts and refuses values as the queue does that it shows. -/
theorem Shows.push (shown : window.Shows queue) (value : α) :
    (window.perform (.push value)).1 = (queue.perform (.push value)).1 ∧
      (window.perform (.push value)).2.Shows (queue.perform (.push value)).2 := by
  rw [Window.perform, QuotaQueue.perform, ← shown.stop, ← shown.capacity]
  cases pushed : window.push value with
  | error back =>
    obtain ⟨full, rfl⟩ := push_eq_error.mp pushed
    rw [if_neg (Nat.not_lt_of_ge (Nat.le_of_eq full.symm))]
    exact ⟨rfl, shown⟩
  | ok extended =>
    have free : window.stop < window.capacity := exists_push_eq_ok.mp ⟨extended, pushed⟩
    have inside : queue.gone ≤ queue.accepted.length := by
      rw [← shown.start, ← shown.stop]
      exact window.start_le_stop
    obtain ⟨-, same, kept⟩ := room_push pushed
    rw [if_pos free]
    refine ⟨rfl, kept, same.trans shown.start, ?_, ?_⟩
    · rw [stop_push pushed, shown.stop, List.length_append]
      rfl
    · rw [toList_push pushed, shown.toList]
      exact (List.drop_append_of_le_length inside).symm

/-- A window hands out the value that the queue does which it shows. -/
theorem Shows.pop (shown : window.Shows queue) :
    (window.perform .pop).1 = (queue.perform .pop).1 ∧
      (window.perform .pop).2.Shows (queue.perform .pop).2 := by
  rw [Window.perform, QuotaQueue.perform, ← shown.toList]
  cases taken : window.pop? with
  | none =>
    rw [toList_of_pop?_eq_none taken]
    exact ⟨rfl, shown⟩
  | some pair =>
    obtain ⟨value, rest⟩ := pair
    obtain ⟨moved, kept⟩ := start_pop? taken
    have listed := toList_pop? taken
    have behind : queue.accepted.drop (queue.gone + 1) = queue.waiting.tail := List.tail_drop.symm
    rw [listed]
    refine ⟨rfl, (capacity_pop? taken).trans shown.capacity,
      moved.trans (congrArg (· + 1) shown.start), kept.trans shown.stop, ?_⟩
    rw [QuotaQueue.waiting, behind, ← shown.toList, listed, List.tail_cons]

/-- A window drops the values that the queue does which it shows. -/
theorem Shows.consume (shown : window.Shows queue) (count : Nat) :
    (window.perform (.consume count)).1 = (queue.perform (.consume count)).1 ∧
      (window.perform (.consume count)).2.Shows (queue.perform (.consume count)).2 := by
  have length : window.length = queue.waiting.length := by rw [← length_toList, shown.toList]
  have dropped : min count window.length = min count queue.waiting.length := by rw [length]
  have left : queue.accepted.drop (queue.gone + min count queue.waiting.length) =
      queue.waiting.drop count := by
    rw [← List.drop_drop]
    rcases Nat.le_total count queue.waiting.length with few | many
    · rw [Nat.min_eq_left few]
      rfl
    · rw [Nat.min_eq_right many, List.drop_of_length_le many]
      exact List.drop_length
  refine ⟨congrArg Answer.consumed dropped, shown.capacity,
    congr (congrArg Nat.add shown.start) dropped, shown.stop, ?_⟩
  exact (toList_consume window count).trans (shown.toList ▸ left.symm)

/-- A window answers an operation as the queue does that it shows, and shows the queue after it. -/
theorem Shows.perform (shown : window.Shows queue) (operation : Operation α) :
    (window.perform operation).1 = (queue.perform operation).1 ∧
      (window.perform operation).2.Shows (queue.perform operation).2 := by
  cases operation with
  | push value => exact shown.push value
  | pop => exact shown.pop
  | consume count => exact shown.consume count
  | reset => exact ⟨rfl, shown.capacity, rfl, rfl, rfl⟩

/-- A window answers operations as the queue does that it shows, and goes on to show it. -/
theorem Shows.runAll (shown : window.Shows queue) (operations : List (Operation α)) :
    let ran := Operation.runAll Window.perform window operations
    let queued := Operation.runAll QuotaQueue.perform queue operations
    ran.1 = queued.1 ∧ ran.2.Shows queued.2 := by
  induction operations generalizing window queue with
  | nil => exact ⟨rfl, shown⟩
  | cons operation rest ih =>
    obtain ⟨answer, after⟩ := shown.perform operation
    obtain ⟨answers, later⟩ := ih after
    exact ⟨congr (congrArg List.cons answer) answers, later⟩

/-! ## Values that enter and leave -/

/-- The value that an operation has appended, by its answer. -/
def Operation.entering : Operation α → Answer α → List α
  | .push value, .accepted => [value]
  | _, _ => []

/-- The live values that an operation takes from a window, handed out or dropped. -/
def leaving (window : Window α) : Operation α → List α
  | .push _ => []
  | .pop => window.toList.take 1
  | .consume count => window.toList.take count
  | .reset => window.toList

/-- The values that operations append to a window, in order. -/
def entered (window : Window α) : List (Operation α) → List α
  | [] => []
  | operation :: rest =>
    operation.entering (window.perform operation).1 ++ (window.perform operation).2.entered rest

/-- The live values that operations take from a window, in order. -/
def departed (window : Window α) : List (Operation α) → List α
  | [] => []
  | operation :: rest =>
    window.leaving operation ++ (window.perform operation).2.departed rest

/-- What was live and what an operation appends either leaves with it or is live after it. -/
theorem toList_append_entering (window : Window α) (operation : Operation α) :
    window.toList ++ operation.entering (window.perform operation).1 =
      window.leaving operation ++ (window.perform operation).2.toList := by
  cases operation with
  | push value =>
    rw [perform]
    cases pushed : window.push value with
    | ok extended => exact (toList_push pushed).symm
    | error back => exact List.append_nil _
  | pop =>
    rw [perform, leaving]
    cases taken : window.pop? with
    | none => rw [toList_of_pop?_eq_none taken]; rfl
    | some pair => rw [toList_pop? taken]; exact List.append_nil _
  | consume count =>
    have split := List.take_append_drop count window.toList
    rw [← toList_consume] at split
    exact (List.append_nil _).trans split.symm
  | reset => rfl

/-- What was live and what operations append leaves in this order, up to what is live after them. -/
theorem toList_append_entered (window : Window α) (operations : List (Operation α)) :
    window.toList ++ window.entered operations =
      window.departed operations ++
        (Operation.runAll Window.perform window operations).2.toList := by
  induction operations generalizing window with
  | nil => exact List.append_nil _
  | cons operation rest ih =>
    have later := ih (window.perform operation).2
    rw [entered, departed, ← List.append_assoc, toList_append_entering, List.append_assoc, later,
      List.append_assoc]
    rfl

/-- Whatever is done with a window over some storage, it answers like a queue whose quota is the
number of its slots. It starts at as many slots as values have left the queue since the last reset
and stops at as many as have been accepted, within a capacity that stays, and its live values are
those that have been accepted and not left. So all values that were ever accepted are those that
left and then the live ones, in the order in which they came. A further value is handed back, with
nothing changed, exactly if as many have been accepted since the last reset as there are slots, and
as many values are dropped as asked for, or all. -/
theorem runAll_refines_queue (storage : Array α) (operations : List (Operation α)) :
    let ran := Operation.runAll Window.perform (ofStorage storage) operations
    let window := ran.2
    let queued := Operation.runAll QuotaQueue.perform (.fresh (min storage.size maxCapacity))
      operations
    let queue := queued.2
    ran.1 = queued.1 ∧
      (window.start = queue.gone ∧ window.stop = queue.accepted.length ∧
        window.start ≤ window.stop ∧ window.stop ≤ window.capacity ∧
        window.capacity = min storage.size maxCapacity) ∧
      window.toList = queue.accepted.drop queue.gone ∧
      (ofStorage storage).entered operations =
        (ofStorage storage).departed operations ++ window.toList ∧
      (∀ value, (queue.accepted.length = window.capacity →
          window.perform (.push value) = (.refused value, window)) ∧
        (queue.accepted.length ≠ window.capacity →
          (window.perform (.push value)).1 = .accepted)) ∧
      ∀ count, (window.consume count).1 = min count window.toList.length ∧
        (window.consume count).2.toList = window.toList.drop count := by
  intro ran window queued queue
  obtain ⟨answers, shown⟩ : ran.1 = queued.1 ∧ window.Shows queue :=
    (shows_ofStorage storage).runAll operations
  have kept : window.capacity = min storage.size maxCapacity :=
    shown.capacity.trans (QuotaQueue.quota_runAll _ operations)
  have ledger := toList_append_entered (ofStorage storage) operations
  rw [(shows_ofStorage storage).toList] at ledger
  refine ⟨answers, ⟨shown.start, shown.stop, window.start_le_stop, window.stop_le_size, kept⟩,
    shown.toList, ledger, fun value => ⟨fun full => ?_, fun room => ?_⟩,
    fun count => ⟨?_, toList_consume window count⟩⟩
  · rw [← shown.stop] at full
    rw [perform, push_eq_error.mpr ⟨full, rfl⟩]
  · rw [← shown.stop] at room
    obtain ⟨extended, pushed⟩ :=
      exists_push_eq_ok.mpr (Nat.lt_of_le_of_ne window.stop_le_size room)
    rw [perform, pushed]
  · rw [length_toList]
    rfl

end Window

end LispReader
