import LispReader.Proofs.HeapContents

/-!
# Runs over a heap

A ledger is a heap together with the regions it has handed out, and with the bytes last written
through each of them. Whatever is asked for in whatever order, the regions lie behind one another
inside the block, each starts at a multiple of its alignment, and each still holds what was last
written through it. A refused call leaves the ledger as it is, so the calls after it are answered as
if it had never been made. Storing and overwriting numbers in cells are calls of this kind.
-/

namespace LispReader

/-! ## Ledgers -/

/-- A region handed out, with the byte last written through it at each place, if one was. -/
structure Region where
  start : Nat
  size : Nat
  align : UInt64
  written : Nat → Option UInt8

namespace Region

/-- Where a region stops. -/
def stop (region : Region) : Nat := region.start + region.size

/-- Writes bytes through a region, from `place` on. -/
def write (region : Region) (place : Nat) (contents : List UInt8) : Region :=
  { region with
    written := fun spot =>
      if place ≤ spot ∧ spot < place + contents.length then contents[spot - place]?
      else region.written spot }

/-- Where a region starts, how many bytes it has and what it is aligned to. -/
def extent (region : Region) : Nat × Nat × UInt64 := (region.start, region.size, region.align)

/-- One region stops before another starts. -/
def Before (region other : Region) : Prop := region.stop ≤ other.start

/-- The bytes last written through a region, from its start on, are `contents`. -/
def Shows (region : Region) (contents : List UInt8) : Prop :=
  ∀ place byte, contents[place]? = some byte → region.written place = some byte

/-- A region is sound in a heap if it lies among the bytes spoken for, starts at a multiple of its
alignment and holds what was last written through it. -/
structure Sound (heap : Heap) (region : Region) : Prop where
  inside : region.stop ≤ heap.arena.offset.toNat
  aligned : (heap.arena.base.toNat + region.start) % region.align.toNat = 0
  holds : ∀ place byte, region.written place = some byte →
    place < region.size ∧ heap.bytes[region.start + place]? = some byte

/-- A region stays sound when bytes are written before it or behind it. -/
theorem Sound.poke {heap : Heap} {region : Region} (sound : region.Sound heap) {start : Nat}
    {contents : List UInt8}
    (elsewhere : region.stop ≤ start ∨ start + contents.length ≤ region.start) :
    region.Sound (heap.poke start contents) := by
  obtain ⟨inside, aligned, holds⟩ := sound
  refine ⟨inside, aligned, fun spot byte written => ?_⟩
  obtain ⟨bounded, held⟩ := holds spot byte written
  rw [stop] at inside elsewhere
  refine ⟨bounded, ?_⟩
  rw [Heap.getElem?_poke (by omega), if_neg (by omega)]
  exact held

/-- A region that bytes are written through holds them, and around them what it held. -/
theorem Sound.write {heap : Heap} {region : Region} (sound : region.Sound heap) {place : Nat}
    {contents : List UInt8} (fits : place + contents.length ≤ region.size) :
    (region.write place contents).Sound (heap.poke (region.start + place) contents) := by
  obtain ⟨inside, aligned, holds⟩ := sound
  refine ⟨inside, aligned, fun spot byte written => ?_⟩
  rw [stop] at inside
  simp only [Region.write] at written ⊢
  split at written
  · rename_i among
    refine ⟨by omega, ?_⟩
    rw [Heap.getElem?_poke (by omega), if_pos (by omega),
      show region.start + spot - (region.start + place) = spot - place by omega]
    exact written
  · rename_i around
    obtain ⟨bounded, held⟩ := holds spot byte written
    refine ⟨bounded, ?_⟩
    rw [Heap.getElem?_poke (by omega), if_neg (by omega)]
    exact held

/-- A region stays sound when another one is handed out. -/
theorem Sound.of_grants {heap after : Heap} {size align : UInt64} {start : Nat} {region : Region}
    (sound : region.Sound heap) (granted : heap.Grants size align start after) :
    region.Sound after := by
  obtain ⟨inside, aligned, holds⟩ := sound
  have behind := granted.arena.behind
  have stops := granted.arena.stop
  refine ⟨by omega, granted.arena.base ▸ aligned, fun place byte written => ?_⟩
  obtain ⟨bounded, held⟩ := holds place byte written
  rw [stop] at inside
  refine ⟨bounded, ?_⟩
  rw [granted.keeps _ (by omega)]
  exact held

end Region

/-- What may be asked of a heap: bytes to be reserved, bytes to be stored in a fresh region, and
bytes to be written through the region that was handed out as number `index`. -/
inductive Call where
  | reserve (size align : UInt64)
  | place (contents : List UInt8) (align : UInt64) (small : contents.length < UInt64.size)
  | write (index place : Nat) (contents : List UInt8)

/-- What a call is answered: where its region starts, why it is refused, or nothing. -/
inductive Answer where
  | granted (start : Nat)
  | refused (problem : ArenaError)
  | done
  deriving DecidableEq

/-- Where the region that was asked for starts, how many bytes it has and what it is aligned to, if
it was granted. -/
def Call.extent? : Call → Answer → Option (Nat × Nat × UInt64)
  | .reserve size align, .granted start => some (start, size.toNat, align)
  | .place contents align _, .granted start => some (start, contents.length, align)
  | _, _ => none

/-- A heap and the regions that it has handed out, in that order. -/
structure Ledger where
  heap : Heap
  regions : List Region

namespace Ledger

/-- Enters what the heap has handed out. -/
def enter (ledger : Ledger) (size : Nat) (align : UInt64) (written : Nat → Option UInt8) :
    Except ArenaError (Nat × Heap) → Answer × Ledger
  | .error problem => (.refused problem, ledger)
  | .ok (start, heap) =>
    (.granted start, ⟨heap, ledger.regions ++ [⟨start, size, align, written⟩]⟩)

/-- Writes through a region. Nothing can be written through a region that was never handed out, or
past the end of one. -/
def write (ledger : Ledger) (index place : Nat) (contents : List UInt8) : Ledger :=
  match ledger.regions[index]? with
  | none => ledger
  | some region =>
    if place + contents.length ≤ region.size then
      ⟨ledger.heap.poke (region.start + place) contents,
        ledger.regions.set index (region.write place contents)⟩
    else ledger

/-- A write changes nothing, or it goes through a region that it fits into. -/
theorem write_cases (ledger : Ledger) (index place : Nat) (contents : List UInt8) :
    ledger.write index place contents = ledger ∨
      ∃ target, ledger.regions[index]? = some target ∧ place + contents.length ≤ target.size ∧
        ledger.write index place contents = ⟨ledger.heap.poke (target.start + place) contents,
          ledger.regions.set index (target.write place contents)⟩ := by
  cases found : ledger.regions[index]? with
  | none => exact .inl (by rw [write, found])
  | some target =>
    by_cases fits : place + contents.length ≤ target.size
    · exact .inr ⟨target, rfl, fits, by simp only [write, found, if_pos fits]⟩
    · exact .inl (by simp only [write, found, if_neg fits])

/-- One call: what it is answered, and the ledger after it. -/
def step (ledger : Ledger) : Call → Answer × Ledger
  | .reserve size align =>
    ledger.enter size.toNat align (fun _ => none) (ledger.heap.reserve size align)
  | .place contents align _ =>
    ledger.enter contents.length align (contents[·]?) (ledger.heap.place contents align)
  | .write index place contents => (.done, ledger.write index place contents)

/-- Storing numbers in a cell is placing their bytes. -/
theorem step_place_spell (ledger : Ledger) {width : Width} {numbers : List Nat}
    (small : (width.spell numbers).length < UInt64.size) :
    ledger.step (.place (width.spell numbers) width.bytes.toUInt64 small) =
      ledger.enter (width.spell numbers).length width.bytes.toUInt64
        ((width.spell numbers)[·]?)
        ((ledger.heap.store width numbers).map fun stored => (stored.1.start, stored.2)) := by
  rw [step, Heap.store]
  cases ledger.heap.place (width.spell numbers) width.bytes.toUInt64 <;> rfl

/-- Overwriting a number of a cell is writing its bytes through the region of the cell. -/
theorem heap_step_write {ledger : Ledger} {index place : Nat} {region : Region} {cell : Cell}
    (found : ledger.regions[index]? = some region) (start : region.start = cell.start)
    (size : region.size = cell.width.bytes * cell.count) (inside : place < cell.count)
    (number : Nat) :
    (ledger.step (.write index (cell.width.bytes * place)
      (Width.littleEndian cell.width.bytes number))).2.heap =
        ledger.heap.write cell place number := by
  have fits : cell.width.bytes * place + cell.width.bytes ≤ cell.width.bytes * cell.count :=
    Nat.mul_le_mul_left cell.width.bytes inside
  simp only [step, write, found, Width.length_littleEndian, size, if_pos fits, start, Heap.write]

/-- Calls one after another: their answers, and the ledger after them. -/
def run (ledger : Ledger) : List Call → List Answer × Ledger
  | [] => ([], ledger)
  | call :: rest =>
    let next := (ledger.step call).2.run rest
    ((ledger.step call).1 :: next.1, next.2)

/-- Calls after others are run from where those have ended. -/
theorem run_append (ledger : Ledger) (first second : List Call) :
    ledger.run (first ++ second) =
      ((ledger.run first).1 ++ ((ledger.run first).2.run second).1,
        ((ledger.run first).2.run second).2) := by
  induction first generalizing ledger with
  | nil => rfl
  | cons call rest ih => simp only [List.cons_append, run, ih]

/-- Every call is answered. -/
theorem length_run (ledger : Ledger) (calls : List Call) :
    (ledger.run calls).1.length = calls.length := by
  induction calls generalizing ledger with
  | nil => rfl
  | cons call rest ih => rw [run, List.length_cons, ih, List.length_cons]

/-- The regions that a run of calls was granted, in order. -/
def granted (calls : List Call) (answers : List Answer) : List (Nat × Nat × UInt64) :=
  (calls.zip answers).filterMap fun asked => asked.1.extent? asked.2

/-! ## What a call does -/

/-- Everything a call can do: hand out a region that holds what is said to be written in it, be
refused and change nothing, or write through a region. -/
inductive Steps (ledger : Ledger) (call : Call) : Answer → Ledger → Prop where
  | grants {size align : UInt64} {start : Nat} {after : Heap} {written : Nat → Option UInt8}
      (granted : ledger.heap.Grants size align start after)
      (holds : ∀ place byte, written place = some byte →
        place < size.toNat ∧ after.bytes[start + place]? = some byte)
      (asked : call.extent? (.granted start) = some (start, size.toNat, align)) :
      Steps ledger call (.granted start)
        ⟨after, ledger.regions ++ [⟨start, size.toNat, align, written⟩]⟩
  | refuses (problem : ArenaError) : Steps ledger call (.refused problem) ledger
  | writes (index place : Nat) (contents : List UInt8) :
      Steps ledger call .done (ledger.write index place contents)

/-- A call does one of these. -/
theorem steps_step (ledger : Ledger) (call : Call) :
    ledger.Steps call (ledger.step call).1 (ledger.step call).2 := by
  cases call with
  | reserve size align =>
    rw [step]
    cases found : ledger.heap.reserve size align with
    | error problem => exact .refuses problem
    | ok handed =>
      obtain ⟨start, after⟩ := handed
      exact .grants (Heap.grants_of_reserve found) (fun _ _ never => by cases never) rfl
  | place contents align small =>
    rw [step]
    cases found : ledger.heap.place contents align with
    | error problem => exact .refuses problem
    | ok handed =>
      obtain ⟨start, after⟩ := handed
      obtain ⟨granted, holds⟩ := Heap.grants_of_place small found
      have length : contents.length.toUInt64.toNat = contents.length :=
        UInt64.toNat_ofNat_of_lt' small
      have bounded : ∀ place byte, contents[place]? = some byte →
          place < contents.length.toUInt64.toNat ∧ after.bytes[start + place]? = some byte := by
        intro place byte written
        rw [length]
        exact ⟨(List.getElem?_eq_some_iff.mp written).1, holds place byte written⟩
      have asked : (Call.place contents align small).extent? (.granted start) =
          some (start, contents.length.toUInt64.toNat, align) := by
        rw [length]
        rfl
      have entered := Steps.grants granted bounded asked
      rw [length] at entered
      exact entered
  | write index place contents => exact .writes index place contents

/-- A refused call leaves the ledger as it is. -/
theorem step_of_refused {ledger : Ledger} {call : Call} {problem : ArenaError}
    (refused : (ledger.step call).1 = .refused problem) : (ledger.step call).2 = ledger := by
  have steps := ledger.steps_step call
  rw [refused] at steps
  generalize (ledger.step call).2 = after at steps
  cases steps
  rfl

/-- A ledger is sound if its regions are, and if each of them stops before the next one starts. -/
structure Sound (ledger : Ledger) : Prop where
  regions : ∀ region ∈ ledger.regions, region.Sound ledger.heap
  apart : ledger.regions.Pairwise Region.Before

/-- A ledger comes after another if it is over the same block, of which no less is spoken for. -/
structure Follows (before after : Ledger) : Prop where
  base : after.heap.arena.base = before.heap.arena.base
  capacity : after.heap.arena.capacity = before.heap.arena.capacity
  offset : before.heap.arena.offset.toNat ≤ after.heap.arena.offset.toNat

/-- A ledger comes after itself. -/
theorem Follows.refl (ledger : Ledger) : Follows ledger ledger := ⟨rfl, rfl, Nat.le_refl _⟩

/-- What comes after a later ledger comes after an earlier one. -/
theorem Follows.trans {first second third : Ledger} (earlier : Follows first second)
    (later : Follows second third) : Follows first third :=
  ⟨later.base.trans earlier.base, later.capacity.trans earlier.capacity,
    Nat.le_trans earlier.offset later.offset⟩

/-- A sound ledger stays sound when a fresh region is entered that holds what is said to be written
in it. -/
theorem sound_enter {ledger : Ledger} (sound : ledger.Sound) {size align : UInt64} {start : Nat}
    {after : Heap} {written : Nat → Option UInt8}
    (granted : ledger.heap.Grants size align start after)
    (holds : ∀ place byte, written place = some byte →
      place < size.toNat ∧ after.bytes[start + place]? = some byte) :
    Sound ⟨after, ledger.regions ++ [⟨start, size.toNat, align, written⟩]⟩ := by
  have fresh : Region.Sound after ⟨start, size.toNat, align, written⟩ :=
    ⟨Nat.le_of_eq granted.arena.stop.symm, granted.arena.base ▸ granted.arena.aligned, holds⟩
  refine ⟨fun region member => ?_, List.pairwise_append.mpr ⟨sound.apart, ?_, ?_⟩⟩
  · rcases List.mem_append.mp member with old | new
    · exact (sound.regions region old).of_grants granted
    · rw [List.mem_singleton.mp new]
      exact fresh
  · exact List.pairwise_singleton ..
  · intro earlier old later new
    rw [List.mem_singleton.mp new]
    exact Nat.le_trans (sound.regions earlier old).inside granted.arena.behind

/-- Two regions of a sound ledger share no byte. -/
theorem Sound.separate {ledger : Ledger} (sound : ledger.Sound) {first second : Nat}
    {one other : Region} (atFirst : ledger.regions[first]? = some one)
    (atSecond : ledger.regions[second]? = some other) (different : first ≠ second) :
    one.stop ≤ other.start ∨ other.stop ≤ one.start := by
  obtain ⟨firstInside, rfl⟩ := List.getElem?_eq_some_iff.mp atFirst
  obtain ⟨secondInside, rfl⟩ := List.getElem?_eq_some_iff.mp atSecond
  have pairs := List.pairwise_iff_getElem.mp sound.apart
  rcases Nat.lt_or_gt_of_ne different with before | after
  · exact .inl (pairs first second firstInside secondInside before)
  · exact .inr (pairs second first secondInside firstInside after)

/-- Regions stay in a row when bytes are written through one of them. -/
theorem pairwise_before_set {regions : List Region} (apart : regions.Pairwise Region.Before)
    {index : Nat} {target : Region} (found : regions[index]? = some target) (place : Nat)
    (contents : List UInt8) :
    (regions.set index (target.write place contents)).Pairwise Region.Before := by
  obtain ⟨bounded, rfl⟩ := List.getElem?_eq_some_iff.mp found
  rw [List.pairwise_iff_getElem] at apart ⊢
  intro first second firstInside secondInside less
  rw [List.length_set] at firstInside secondInside
  have before := apart first second firstInside secondInside less
  rw [List.getElem_set, List.getElem_set]
  -- Neither region has moved, whichever of them was written through.
  split <;> split <;> rename_i one other
  · omega
  · subst one
    exact before
  · subst other
    exact before
  · exact before

/-- A sound ledger stays sound when bytes are written through one of its regions. -/
theorem sound_write {ledger : Ledger} (sound : ledger.Sound) (index place : Nat)
    (contents : List UInt8) : (ledger.write index place contents).Sound := by
  rcases ledger.write_cases index place contents with same | ⟨target, found, fits, wrote⟩
  · rw [same]
    exact sound
  rw [wrote]
  refine ⟨fun region member => ?_, pairwise_before_set sound.apart found place contents⟩
  obtain ⟨number, entry⟩ := List.mem_iff_getElem?.mp member
  have targetSound := sound.regions target (List.mem_of_getElem? found)
  by_cases same : index = number
  · subst same
    rw [List.getElem?_set_self', found] at entry
    cases entry
    exact targetSound.write fits
  · rw [List.getElem?_set_ne same] at entry
    apply (sound.regions region (List.mem_of_getElem? entry)).poke
    have separate := sound.separate found entry same
    simp only [Region.stop] at separate ⊢
    omega

/-- Writing through a region does not touch the arena, and leaves every region where it is. -/
theorem write_spec (ledger : Ledger) (index place : Nat) (contents : List UInt8) :
    (ledger.write index place contents).heap.arena = ledger.heap.arena ∧
      (ledger.write index place contents).regions.map Region.extent =
        ledger.regions.map Region.extent := by
  rcases ledger.write_cases index place contents with same | ⟨target, found, fits, wrote⟩
  · rw [same]
    exact ⟨rfl, rfl⟩
  obtain ⟨bounded, rfl⟩ := List.getElem?_eq_some_iff.mp found
  have mapped : index < (ledger.regions.map Region.extent).length := by
    rwa [List.length_map]
  have same := List.set_getElem_self mapped
  rw [List.getElem_map] at same
  rw [wrote]
  refine ⟨rfl, ?_⟩
  rw [List.map_set]
  exact same

/-- A call keeps a ledger sound. -/
theorem Steps.sound {ledger after : Ledger} {call : Call} {answer : Answer}
    (steps : ledger.Steps call answer after) (sound : ledger.Sound) : after.Sound := by
  cases steps with
  | grants granted holds asked => exact sound_enter sound granted holds
  | refuses problem => exact sound
  | writes index place contents => exact sound_write sound index place contents

/-- The ledger after a call comes after the one before it. -/
theorem Steps.follows {ledger after : Ledger} {call : Call} {answer : Answer}
    (steps : ledger.Steps call answer after) : ledger.Follows after := by
  cases steps with
  | grants granted holds asked =>
    obtain ⟨-, behind, -, stop, base, capacity⟩ := granted.arena
    refine ⟨base, capacity, ?_⟩
    simp only [stop]
    omega
  | refuses problem => exact .refl ledger
  | writes index place contents =>
    obtain ⟨arena, -⟩ := ledger.write_spec index place contents
    exact ⟨by rw [arena], by rw [arena], Nat.le_of_eq (by rw [arena])⟩

/-- A call enters the region that it is granted, and no other. -/
theorem Steps.extents {ledger after : Ledger} {call : Call} {answer : Answer}
    (steps : ledger.Steps call answer after) :
    after.regions.map Region.extent =
      ledger.regions.map Region.extent ++ (call.extent? answer).toList := by
  cases steps with
  | grants granted holds asked => rw [asked, List.map_append]; rfl
  | refuses problem =>
    have nothing : call.extent? (.refused problem) = none := by cases call <;> rfl
    rw [nothing]
    exact (List.append_nil _).symm
  | writes index place contents =>
    have nothing : call.extent? .done = none := by cases call <;> rfl
    rw [nothing, (ledger.write_spec index place contents).2]
    exact (List.append_nil _).symm

/-! ## What a run of calls does -/

/-- A run of calls keeps a ledger sound. -/
theorem sound_run {ledger : Ledger} (sound : ledger.Sound) (calls : List Call) :
    (ledger.run calls).2.Sound := by
  induction calls generalizing ledger with
  | nil => exact sound
  | cons call rest ih => exact ih ((ledger.steps_step call).sound sound)

/-- The ledger after a run of calls comes after the one before it. -/
theorem follows_run (ledger : Ledger) (calls : List Call) :
    ledger.Follows (ledger.run calls).2 := by
  induction calls generalizing ledger with
  | nil => exact .refl ledger
  | cons call rest ih => exact (ledger.steps_step call).follows.trans (ih _)

/-- A run of calls enters the regions that it is granted, and no others. -/
theorem extents_run (ledger : Ledger) (calls : List Call) :
    (ledger.run calls).2.regions.map Region.extent =
      ledger.regions.map Region.extent ++ granted calls (ledger.run calls).1 := by
  induction calls generalizing ledger with
  | nil => exact (List.append_nil _).symm
  | cons call rest ih =>
    rw [run, ih, (ledger.steps_step call).extents, List.append_assoc, granted, granted,
      List.zip_cons_cons, List.filterMap_cons]
    cases (call.extent? (ledger.step call).1) with
    | none => rfl
    | some extent => rfl

/-- The numbers last written through a region are the numbers read in it. -/
theorem Sound.read {ledger : Ledger} (sound : ledger.Sound) {region : Region}
    (member : region ∈ ledger.regions) {width : Width} {numbers : List Nat}
    (shows : region.Shows (width.spell numbers)) :
    ledger.heap.read ⟨region.start, width, numbers.length⟩ =
      numbers.map (· % Width.limit width.bytes) := by
  apply Heap.read_of_holds
  intro place byte found
  exact ((sound.regions region member).holds place byte (shows place byte found)).2

/-- Whatever is asked of a heap, in whatever order and with whatever success: the block stays where
it is, and what is spoken for never shrinks or exceeds it; the regions are those granted, each lies
inside the block, starts at a multiple of its alignment and stops before the next one starts; what
is read in a region is what was last written through it; and a refused call leaves the ledger as it
is, so that the other calls are answered as if it had not been made. -/
theorem run_isolates (heap : Heap) (calls : List Call) :
    let opened : Ledger := ⟨heap, []⟩
    let answers := (opened.run calls).1
    let last := (opened.run calls).2
    (last.heap.arena.base = heap.arena.base ∧
      last.heap.arena.capacity = heap.arena.capacity ∧
      last.heap.arena.offset.toNat ≤ heap.arena.capacity.toNat ∧
      ∀ earlier later, calls = earlier ++ later →
        (opened.run earlier).2.heap.arena.offset.toNat ≤ last.heap.arena.offset.toNat) ∧
    (last.regions.map Region.extent = granted calls answers ∧
      (∀ region ∈ last.regions, region.start + region.size ≤ heap.arena.capacity.toNat ∧
        (heap.arena.base.toNat + region.start) % region.align.toNat = 0) ∧
      last.regions.Pairwise fun earlier later => earlier.start + earlier.size ≤ later.start) ∧
    (∀ region ∈ last.regions,
      (∀ place byte, region.written place = some byte →
        place < region.size ∧ last.heap.bytes[region.start + place]? = some byte) ∧
      ∀ width numbers, region.Shows (width.spell numbers) →
        last.heap.read ⟨region.start, width, numbers.length⟩ =
          numbers.map (· % Width.limit width.bytes)) ∧
    ∀ earlier call later problem, calls = earlier ++ call :: later →
      ((opened.run earlier).2.step call).1 = .refused problem →
      ((opened.run earlier).2.step call).2 = (opened.run earlier).2 ∧
        ∃ front back, front.length = earlier.length ∧
          answers = front ++ .refused problem :: back ∧
          opened.run (earlier ++ later) = (front ++ back, last) := by
  intro opened answers last
  have fresh : opened.Sound := ⟨fun _ member => absurd member List.not_mem_nil, List.Pairwise.nil⟩
  have sound : last.Sound := sound_run fresh calls
  have follows : opened.Follows last := follows_run opened calls
  have bounded := last.heap.arena.offset_le_capacity
  rw [follows.capacity] at bounded
  refine ⟨⟨follows.base, follows.capacity, bounded, ?_⟩, ⟨?_, ?_, sound.apart⟩, ?_, ?_⟩
  · intro earlier later parts
    have onwards := follows_run (opened.run earlier).2 later
    simp only [last, parts, run_append]
    exact onwards.offset
  · exact extents_run opened calls
  · intro region member
    obtain ⟨inside, aligned, -⟩ := sound.regions region member
    rw [follows.base] at aligned
    exact ⟨Nat.le_trans inside bounded, aligned⟩
  · intro region member
    exact ⟨(sound.regions region member).holds, fun _ _ shows => sound.read member shows⟩
  · intro earlier call later problem parts refused
    have unchanged := step_of_refused refused
    refine ⟨unchanged, (opened.run earlier).1, ((opened.run earlier).2.run later).1, ?_, ?_, ?_⟩
    · exact length_run opened earlier
    · simp only [answers, parts, run_append, run, refused, unchanged]
    · simp only [last, parts, run_append, run, unchanged]

/-- In a block of 16 bytes: three bytes are reserved, a number of four bytes is stored behind them,
two calls are refused, a byte is stored, and then the number is overwritten and read. -/
theorem run_isolates_tight_block :
    let heap : Heap := ⟨⟨Arena.blockAddress, 16, 0, by decide, by decide, by decide⟩, #[], rfl⟩
    let calls : List Call := [.reserve 3 1, .place (Width.four.spell [7]) 4 (by decide),
      .reserve 16 8, .reserve 1 3, .place [5] 1 (by decide), .write 1 0 (Width.four.spell [600])]
    let ran := (Ledger.mk heap []).run calls
    ran.1 = [.granted 0, .granted 4, .refused (.exhausted 16 8 8), .refused (.badAlignment 3),
        .granted 8, .done] ∧
      ran.2.heap.read ⟨4, .four, 1⟩ = [600] := by
  intro heap calls ran
  have answers : ran.1 = [.granted 0, .granted 4, .refused (.exhausted 16 8 8),
      .refused (.badAlignment 3), .granted 8, .done] := by decide +kernel
  refine ⟨answers, ?_⟩
  obtain ⟨-, -, reads, -⟩ := run_isolates heap calls
  have kept : ran.2.regions[1]?.map
        (fun region => (region.start, (List.range 4).map region.written)) =
      some (4, (Width.four.spell [600]).map some) := by decide +kernel
  obtain ⟨region, number, shape⟩ := Option.map_eq_some_iff.mp kept
  obtain ⟨start, written⟩ := Prod.mk.inj shape
  have shows : region.Shows (Width.four.spell [600]) := by
    intro place byte found
    have inside := (List.getElem?_eq_some_iff.mp found).1
    have entry : ((List.range 4).map region.written)[place]? = some (some byte) := by
      rw [written, List.getElem?_map, found]
      rfl
    rw [List.getElem?_map, List.getElem?_range (show place < 4 from inside)] at entry
    exact Option.some.inj entry
  have read := (reads region (List.mem_of_getElem? number)).2 .four [600] shows
  rw [start] at read
  exact read

end Ledger

end LispReader
