import LispReader.Proofs.LexicalGrammar

/-!
# One call after any others

However a scanner came to be where it is, the next call does one thing: it writes as many of the
tokens that are left as fit behind the window it is given, and touches nothing else. The scanner then
stands where the last of these tokens ends, and has changed its phase if that was the end of the
input. Once it has, calls write nothing, so windows of one size come back full until what is left no
longer fills one.
-/

namespace LispReader

namespace Window

variable {α : Type}

/-- Whether `after` is `window` with `values` written behind it: they fill the next slots, no other
slot has changed, and the front is where it was. -/
structure Gains (window after : Window α) (values : List α) : Prop where
  start : after.start = window.start
  stop : after.stop = window.stop + values.length
  slots : after.slots.toList = window.slots.toList.take window.stop ++
    (values ++ window.slots.toList.drop (window.stop + values.length))

/-- A window gains nothing as long as it is left alone. -/
theorem gains_nil (window : Window α) : window.Gains window [] :=
  ⟨rfl, rfl, (List.take_append_drop _ _).symm⟩

/-- What is written behind an accepted value is written behind the window with that value first. -/
theorem Gains.cons {window extended after : Window α} {value : α} {values : List α}
    (accepted : window.push value = .ok extended) (gains : extended.Gains after values) :
    window.Gains after (value :: values) := by
  obtain ⟨slots, start, stop, start_le_stop, stop_le_size⟩ := window
  simp only [push] at accepted
  split at accepted
  · rename_i room
    cases accepted
    obtain ⟨front, back, filled⟩ := gains
    have inside : stop < slots.toList.length := by rw [Array.length_toList]; exact room
    have behind : stop + 1 + values.length = stop + (value :: values).length := by
      rw [List.length_cons]
      omega
    refine ⟨front, back.trans behind, ?_⟩
    rw [filled, Array.toList_set, behind, List.take_add_one, List.getElem?_set_self inside,
      List.take_set_of_le (Nat.le_refl _), List.drop_set_of_lt (by simp), List.append_assoc]
    rfl
  · cases accepted

end Window

namespace Token

/-- Where the last of some tokens stops, or `position` if there is none. -/
def stopAfter (position : Nat) : List Token → Nat
  | [] => position
  | token :: rest => stopAfter token.span.stop rest

/-- Where the last token stops does not depend on where the first one starts. -/
theorem stopAfter_of_ne_nil {tokens : List Token} (nonempty : tokens ≠ [])
    (position position' : Nat) : stopAfter position tokens = stopAfter position' tokens := by
  cases tokens with
  | nil => exact absurd rfl nonempty
  | cons token rest => rfl

/-- The last of two rows of tokens is the last of the second, if there is any. -/
theorem stopAfter_append (position : Nat) (first second : List Token) :
    stopAfter position (first ++ second) = stopAfter (stopAfter position first) second := by
  induction first generalizing position with
  | nil => rfl
  | cons token first ih => exact ih token.span.stop

end Token

/-- A call of `scanner` that wrote `tokens`, and nothing else, into `window`: the scanner has come to
where the last of them stops, and what is left is still the rest of the same source. -/
structure Scan.Writes (scan : Scan) (scanner : Scanner) (window : Window Token)
    (tokens : List Token) : Prop where
  gains : window.Gains scan.window tokens
  position : scan.scanner.position = Token.stopAfter scanner.position tokens
  position_le : scanner.position ≤ scan.scanner.position
  sourceLength : scan.scanner.sourceLength = scanner.sourceLength

namespace Scanner

/-! ## What a call writes -/

/-- Advancing by a piece stays inside the source. -/
theorem sourceLength_advance_leading (scanner : Scanner) :
    (scanner.advance (Piece.leading scanner.rest).2).sourceLength = scanner.sourceLength :=
  Piece.add_length_drop scanner.position (Piece.length_leading_le scanner.rest)

/-- With room in the window there is a token to write. -/
theorem map_take_cut_ne_nil (scanner : Scanner) {window : Window Token} (free : 0 < window.room) :
    ((cut scanner.position scanner.rest).take window.room).map ReportedToken.token ≠ [] := by
  rw [ne_eq, List.map_eq_nil_iff, List.take_eq_nil_iff]
  rintro (none_free | nothing)
  · omega
  · exact cut_ne_nil scanner.position scanner.rest nothing

/-- Filling a window writes the tokens in front. -/
theorem writes_fill (scanner : Scanner) (window : Window Token) :
    (scanner.fill window).Writes scanner window
      (((cut scanner.position scanner.rest).take window.room).map ReportedToken.token) := by
  induction scanner, window using fill_induction with
  | full scanner window none_free same =>
    rw [same, none_free]
    exact ⟨window.gains_nil, rfl, Nat.le_refl _, rfl⟩
  | ending scanner window extended remains accepted same =>
    have only : cut scanner.position scanner.rest =
        [⟨.endOfInput scanner.position, []⟩] := by rw [remains, cut_nil]
    rw [same, only, (Window.room_push accepted).1, List.take_succ_cons, List.take_nil]
    exact ⟨extended.gains_nil.cons accepted, rfl, Nat.le_refl _, rfl⟩
  | trivia scanner window free remains trivial same ih =>
    have onward : scanner.position ≤ (scanner.advance (Piece.leading scanner.rest).2).position :=
      Nat.le_add_right _ _
    have something := map_take_cut_ne_nil (scanner.advance (Piece.leading scanner.rest).2) free
    rw [same, cut_of_trivia remains trivial]
    -- The scanner has skipped the trivia, but there is a token behind it to stop at.
    exact ⟨ih.gains, ih.position.trans (Token.stopAfter_of_ne_nil something _ _),
      Nat.le_trans onward ih.position_le,
      ih.sourceLength.trans (sourceLength_advance_leading scanner)⟩
  | token scanner window kind extended remains known accepted same ih =>
    have onward : scanner.position ≤ (scanner.advance (Piece.leading scanner.rest).2).position :=
      Nat.le_add_right _ _
    rw [same, cut_of_kind remains known, (Window.room_push accepted).1, List.take_succ_cons,
      List.map_cons]
    exact ⟨ih.gains.cons accepted, ih.position, Nat.le_trans onward ih.position_le,
      ih.sourceLength.trans (sourceLength_advance_leading scanner)⟩

/-- Every call writes the tokens still to come, as far as there is room. -/
theorem writes_scan (scanner : Scanner) (window : Window Token) :
    (scanner.scan window).Writes scanner window
      ((scanner.upcoming.take window.room).map ReportedToken.token) := by
  cases phase : scanner.phase with
  | scanning =>
    simp only [scan, upcoming, phase]
    exact writes_fill scanner window
  | emittedEnd | exhausted =>
    simp only [scan, upcoming, phase, List.take_nil, List.map_nil]
    exact ⟨window.gains_nil, rfl, Nat.le_refl _, rfl⟩

/-- A call without room leaves a scanner that has tokens to write as it is. -/
theorem scan_of_full {scanner : Scanner} {window : Window Token}
    (scanning : scanner.phase = .scanning) (full : window.room = 0) :
    scanner.scan window = ⟨0, scanner, window, []⟩ := by
  have full' : window.isFull = true := by
    rw [← Bool.not_eq_false, Window.isFull_eq_false]
    omega
  rw [scan, scanning]
  exact fill_of_full full'

/-- A call after the end of the input has been written only says so. -/
theorem scan_of_ended {scanner : Scanner} (ended : scanner.phase ≠ .scanning)
    (window : Window Token) :
    scanner.scan window = ⟨0, { scanner with phase := .exhausted }, window, []⟩ := by
  unfold scan
  cases phase : scanner.phase with
  | scanning => exact absurd phase ended
  | emittedEnd | exhausted => rfl

/-! ## Phases -/

/-- The end of the input is among the first tokens exactly if these are all. -/
theorem exists_endOfInput_take_iff (position : Nat) (input : List UInt8) (count : Nat) :
    (∃ token ∈ ((cut position input).take count).map ReportedToken.token,
      token.kind = .endOfInput) ↔ (cut position input).drop count = [] := by
  obtain ⟨front, same, inner⟩ := cut_eq_append_endOfInput position input
  rw [same, List.drop_eq_nil_iff, List.length_append, List.length_singleton]
  constructor
  · rintro ⟨token, member, ending⟩
    obtain ⟨reported, taken, rfl⟩ := List.mem_map.mp member
    rw [← Nat.not_lt]
    intro short
    rw [List.take_append_of_le_length (Nat.le_of_lt_succ short)] at taken
    exact inner reported (List.mem_of_mem_take taken) ending
  · intro all
    rw [List.take_of_length_le (by simpa using all), List.map_append]
    exact ⟨_, List.mem_append_right _ (List.mem_singleton_self _), rfl⟩

/-- A call ends the scan exactly if it writes the end of the input, and else leaves it going. -/
theorem phase_scan {scanner : Scanner} (scanning : scanner.phase = .scanning)
    (window : Window Token) :
    ((scanner.scan window).scanner.phase = .emittedEnd ↔
        ∃ token ∈ (scanner.upcoming.take window.room).map ReportedToken.token,
          token.kind = .endOfInput) ∧
      ((scanner.scan window).scanner.phase = .scanning ↔
        ∀ token ∈ (scanner.upcoming.take window.room).map ReportedToken.token,
          token.kind ≠ .endOfInput) := by
  have going : scanner.upcoming = cut scanner.position scanner.rest := by
    rw [upcoming, scanning]
  have filled : scanner.scan window = scanner.fill window := by rw [scan, scanning]
  have inside : (scanner.scan window).scanner.phase ≠ .exhausted := by
    rw [filled]
    exact phase_fill_ne_exhausted scanner window scanning
  have drained : (scanner.scan window).scanner.phase ≠ .scanning ↔
      ∃ token ∈ (scanner.upcoming.take window.room).map ReportedToken.token,
        token.kind = .endOfInput := by
    rw [← upcoming_eq_nil, (takes_scan scanner window).upcoming, going,
      exists_endOfInput_take_iff]
  constructor
  · rw [← drained]
    cases phase : (scanner.scan window).scanner.phase with
    | scanning => simp
    | emittedEnd => simp
    | exhausted => exact absurd phase inside
  · rw [← Decidable.not_iff_not]
    simpa using drained

/-! ## Rows of calls -/

/-- What a row of calls leaves to be written are the tokens of the source that it has not
appended. -/
theorem map_token_upcoming_scanEach (source : List UInt8) (schedule : List (Window Token)) :
    let log := (start source).scanEach schedule
    log.scanner.upcoming.map ReportedToken.token = (tokens source).drop log.tokens.length := by
  intro log
  obtain ⟨written, -, left⟩ := scanEach_eq_take (start source) schedule
  have whole : (start source).upcoming = cut 0 source := rfl
  rw [show log.scanner.upcoming = _ from left, show log.tokens = _ from written, whole,
    tokens_eq_cut, List.map_drop, List.length_map, List.length_take]
  rcases Nat.le_total (offered schedule) (cut 0 source).length with few | many
  · rw [Nat.min_eq_left few]
  · rw [Nat.min_eq_right many, List.drop_of_length_le (by simpa using many),
      List.drop_of_length_le (by simp)]

/-- A row of calls stays inside the source. -/
theorem sourceLength_scanEach (scanner : Scanner) (schedule : List (Window Token)) :
    (scanner.scanEach schedule).scanner.sourceLength = scanner.sourceLength := by
  induction schedule generalizing scanner with
  | nil => rfl
  | cons window schedule ih =>
    exact (ih (scanner.scan window).scanner).trans (writes_scan scanner window).sourceLength

/-- The numbers of tokens written by calls of `scan`, one for each window of a schedule. -/
def writtenEach (scanner : Scanner) : List (Window Token) → List Nat
  | [] => []
  | window :: schedule =>
    (scanner.scan window).written :: (scanner.scan window).scanner.writtenEach schedule

/-- How `total` tokens fall into batches of `size`: full ones, and what is left over. -/
def batches (size total : Nat) : List Nat :=
  List.replicate (total / size) size ++ if total % size = 0 then [] else [total % size]

/-- The first of several batches is full. -/
theorem batches_of_le {size total : Nat} (positive : 0 < size) (several : size ≤ total) :
    batches size total = size :: batches size (total - size) := by
  have quotient : total / size = (total - size) / size + 1 :=
    Nat.div_eq_sub_div positive several
  have remainder : total % size = (total - size) % size := Nat.mod_eq_sub_mod several
  rw [batches, quotient, remainder, List.replicate_succ]
  rfl

/-- What does not fill a batch is one by itself. -/
theorem batches_of_lt {size total : Nat} (few : total < size) :
    batches size total = if total = 0 then [] else [total] := by
  rw [batches, Nat.div_eq_of_lt few, Nat.mod_eq_of_lt few]
  rfl

/-- How many zeros are put behind a row of numbers does not matter for the numbers in front. -/
theorem take_append_replicate_succ (numbers : List Nat) (count : Nat) :
    (numbers ++ List.replicate (count + 1) 0).take count =
      (numbers ++ List.replicate count 0).take count := by
  rw [List.take_append, List.take_append, List.take_replicate, List.take_replicate,
    Nat.min_eq_left (by omega), Nat.min_eq_left (by omega)]

/-- Calls with the same room write full batches, then what is left over, and then nothing. -/
theorem writtenEach_of_room {size : Nat} (positive : 0 < size) (scanner : Scanner)
    (schedule : List (Window Token)) (rooms : ∀ window ∈ schedule, window.room = size) :
    scanner.writtenEach schedule =
      (batches size scanner.upcoming.length ++ List.replicate schedule.length 0).take
        schedule.length := by
  induction schedule generalizing scanner with
  | nil => rfl
  | cons window schedule ih =>
    obtain ⟨room, rooms⟩ := List.forall_mem_cons.mp rooms
    have takes := takes_scan scanner window
    rw [writtenEach, ih _ rooms, takes.written, takes.upcoming, List.length_drop, room,
      List.length_cons]
    generalize scanner.upcoming.length = total
    rcases Nat.lt_or_ge total size with few | several
    · have none_left : batches size (total - size) = [] := by
        rw [Nat.sub_eq_zero_of_le (Nat.le_of_lt few), batches_of_lt positive, if_pos rfl]
      rw [Nat.min_eq_right (Nat.le_of_lt few), none_left, List.nil_append, batches_of_lt few]
      split
      · rename_i nothing
        rw [nothing, List.nil_append, List.replicate_succ, List.take_succ_cons]
      · rw [List.singleton_append, List.take_succ_cons, List.take_replicate, List.take_replicate,
          Nat.min_eq_left (Nat.le_succ _), Nat.min_self]
    · rw [Nat.min_eq_left several, batches_of_le positive several, List.cons_append,
        List.take_succ_cons, take_append_replicate_succ]

/-- After any calls, a call that has tokens left to write writes as many of them as there is room
for behind its window and nothing else. It ends the scan exactly if the end of the input is among
them, and its scanner comes to stand, never further back and never outside the source, where the
last of them stops; without room nothing changes. Any other call writes nothing and leaves the
scanner exhausted. So calls with the same room write full batches, what is left over, and then
nothing. -/
theorem scan_after_scanEach (source : List UInt8) (earlier : List (Window Token))
    (window : Window Token) :
    let log := (start source).scanEach earlier
    let left := (tokens source).drop log.tokens.length
    let scan := log.scanner.scan window
    let written := left.take scan.written
    (log.scanner.phase = .scanning →
      scan.written = min window.room left.length ∧
      window.Gains scan.window written ∧
      (scan.scanner.phase = .emittedEnd ↔ ∃ token ∈ written, token.kind = .endOfInput) ∧
      (scan.scanner.phase = .scanning ↔ ∀ token ∈ written, token.kind ≠ .endOfInput) ∧
      log.scanner.position ≤ scan.scanner.position ∧
      scan.scanner.position ≤ source.length ∧
      scan.scanner.position = Token.stopAfter log.scanner.position written ∧
      (window.room = 0 → scan = ⟨0, log.scanner, window, []⟩)) ∧
    (log.scanner.phase ≠ .scanning →
      scan = ⟨0, { log.scanner with phase := .exhausted }, window, []⟩) ∧
    ∀ (size : Nat) (schedule : List (Window Token)), 0 < size →
      (∀ fresh ∈ schedule, fresh.room = size) →
      (start source).writtenEach schedule =
        (batches size (tokens source).length ++ List.replicate schedule.length 0).take
          schedule.length := by
  intro log left scan written
  refine ⟨fun scanning => ?_, fun ended => scan_of_ended ended window, fun size schedule positive
    rooms => ?_⟩
  · have others : left = log.scanner.upcoming.map ReportedToken.token :=
      (map_token_upcoming_scanEach source earlier).symm
    have count : scan.written = min window.room left.length := by
      rw [others, List.length_map]
      exact (takes_scan log.scanner window).written
    have taken : written = (log.scanner.upcoming.take window.room).map ReportedToken.token := by
      change left.take scan.written = _
      rw [count, others, List.map_take, ← List.take_eq_take_min]
    obtain ⟨ends, goes_on⟩ := phase_scan scanning window
    obtain ⟨gains, position, onward, whole⟩ := writes_scan log.scanner window
    rw [← taken] at ends goes_on gains position
    have inside : scan.scanner.position ≤ source.length := by
      have total : scan.scanner.sourceLength = 0 + source.length :=
        whole.trans (sourceLength_scanEach (start source) earlier)
      simp only [sourceLength] at total
      omega
    exact ⟨count, gains, ends, goes_on, onward, inside, position, scan_of_full scanning⟩
  · have total : (start source).upcoming.length = (tokens source).length := by
      rw [tokens_eq_cut, List.length_map]
      rfl
    rw [← total]
    exact writtenEach_of_room positive (start source) schedule rooms

/-- A list of nothing but a blank. After its first parenthesis has been written, a window whose first
slot has been used and drained gains the second one; after its end has been written nothing is; and
windows of two slots come back with two tokens, one, and none. -/
theorem scan_after_scanEach_part_consumed :
    let source : List UInt8 := [Byte.leftParen, Byte.space, Byte.rightParen]
    let used : Window Token := ⟨#[.blank, .blank], 1, 1, Nat.le_refl 1, by decide⟩
    let log := (start source).scanEach [.blank 1]
    let scan := log.scanner.scan used
    let ended := ((start source).scanEach [.blank 3]).scanner
    log.scanner.phase = .scanning ∧ scan.written = 1 ∧
      scan.window.slots.toList = [.blank, ⟨.rightParen, ⟨2, 3⟩⟩] ∧
      scan.scanner.phase = .scanning ∧ scan.scanner.position = 3 ∧
      ended.phase ≠ .scanning ∧ (ended.scan used).written = 0 ∧
      (start source).writtenEach [.blank 2, .blank 2, .blank 2] = [2, 1, 0] := by
  intro source used log scan ended
  have cutSource : cut 0 source = [⟨⟨.leftParen, ⟨0, 1⟩⟩, []⟩, ⟨⟨.rightParen, ⟨2, 3⟩⟩, []⟩,
      ⟨.endOfInput 3, []⟩] := by
    rw [cut_leftParen, cut_blank rfl, cut_rightParen, cut_nil]
  have listed : tokens source =
      [⟨.leftParen, ⟨0, 1⟩⟩, ⟨.rightParen, ⟨2, 3⟩⟩, .endOfInput 3] := by
    rw [tokens_eq_cut, cutSource]
    rfl
  have first := scanEach_eq_take (start source) [.blank 1]
  have all := scanEach_eq_take (start source) [.blank 3]
  rw [show (start source).upcoming = _ from cutSource] at first all
  have appended : log.tokens = [⟨.leftParen, ⟨0, 1⟩⟩] := first.1
  have scanning : log.scanner.phase = .scanning := by
    rw [← Decidable.not_not (p := _ = _), ← ne_eq, ← upcoming_eq_nil,
      show log.scanner.upcoming = _ from first.2.2]
    exact List.cons_ne_nil _ _
  have past : ended.phase ≠ .scanning := by
    rw [← upcoming_eq_nil]
    exact all.2.2
  obtain ⟨going, -, counts⟩ := scan_after_scanEach source [.blank 1] used
  obtain ⟨-, stopped, -⟩ := scan_after_scanEach source [.blank 3] used
  obtain ⟨written, gains, -, phase, -, -, position, -⟩ := going scanning
  have rooms : ∀ fresh ∈ [Window.blank 2, .blank 2, .blank 2], fresh.room = 2 := by
    simp
  have row := counts 2 _ (by decide) rooms
  rw [show log.tokens = _ from appended, listed] at written gains phase position
  have one : scan.written = 1 := written
  rw [show scan.written = 1 from one] at gains phase position
  refine ⟨scanning, one, gains.slots, phase.mpr (by decide), position, past, ?_, ?_⟩
  · rw [show ended.scan used = _ from stopped past]
  · rw [row, listed]
    rfl

end Scanner

end LispReader
