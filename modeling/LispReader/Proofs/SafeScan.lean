import LispReader.Proofs.FeedTokens
import LispReader.Proofs.WindowQueue

/-!
# Scanning within bounds

Positions and counts are words of 32 bits, sources and windows are looked into by position, and a
fill relies on a few things that are settled elsewhere: that a piece has bytes, that it ends inside
the source, that a window with room takes a token. What a fill comes to by looking at one piece
after the other is followed here. In a source whose length is a word a fill relies on nothing that
does not hold, wherever it has come to, and what it leaves behind can be filled again.
-/

namespace LispReader

namespace Scanner

/-! ## Where a fill comes to -/

/-- The scanners and windows with which a fill looks at a piece, the first of them those it starts
with, and the number of tokens it has written by then. -/
inductive Reaches (scanner : Scanner) (window : Window Token) :
    Scanner → Window Token → Nat → Prop where
  | start : Reaches scanner window scanner window 0
  | trivia {standing : Scanner} {filled : Window Token} {written : Nat}
      (reaches : Reaches scanner window standing filled written) (free : 0 < filled.room)
      (remains : standing.rest ≠ [])
      (trivial : (Piece.leading standing.rest).1.kind? = none) :
    Reaches scanner window (standing.advance (Piece.leading standing.rest).2) filled written
  | token {standing : Scanner} {filled extended : Window Token} {written : Nat} {kind : TokenKind}
      (reaches : Reaches scanner window standing filled written) (remains : standing.rest ≠ [])
      (known : (Piece.leading standing.rest).1.kind? = some kind)
      (accepted : filled.push ⟨kind, standing.piece.2⟩ = .ok extended) :
    Reaches scanner window (standing.advance (Piece.leading standing.rest).2) extended
      (written + 1)

/-- A fill ends as a fill from wherever it comes to, with the tokens written by then. -/
theorem Reaches.fill_eq {scanner standing : Scanner} {window filled : Window Token} {written : Nat}
    (reaches : Reaches scanner window standing filled written) :
    (scanner.fill window).written = written + (standing.fill filled).written ∧
      (scanner.fill window).scanner = (standing.fill filled).scanner ∧
      (scanner.fill window).window = (standing.fill filled).window := by
  induction reaches with
  | start => exact ⟨(Nat.zero_add _).symm, rfl, rfl⟩
  | trivia reaches free remains trivial ih =>
    rw [fill_of_trivia free remains trivial] at ih
    exact ih
  | token reaches remains known accepted ih =>
    rw [fill_of_token remains known accepted] at ih
    obtain ⟨written, scanner, window⟩ := ih
    refine ⟨written.trans ?_, scanner, window⟩
    simp only [Scan.counted]
    omega

/-- Whether a scanner stands in a source: what is left is the source from its position on. -/
structure StandsIn (scanner : Scanner) (source : List UInt8) : Prop where
  inside : scanner.position ≤ source.length
  rest : scanner.rest = source.drop scanner.position

/-- What a fill relies on when it looks at a piece, `written` tokens after its start. Whatever a
scanner does with a word is done with one of the numbers bounded here. -/
structure LooksSafely (source : List UInt8) (scanner : Scanner) (window : Window Token)
    (written : Nat) : Prop where
  /-- What is left is looked up in the source. -/
  stands : scanner.StandsIn source
  /-- The length of the source and the number of slots are words. -/
  words : source.length < UInt32.size ∧ window.capacity < UInt32.size
  /-- A piece has bytes, and it and the number in front of it end inside the source. So its span has
  its ends in order, and where it stops is a word. -/
  piece : scanner.rest ≠ [] →
    scanner.piece.2.start < scanner.piece.2.stop ∧ scanner.piece.2.stop ≤ source.length ∧
      ∀ length, Piece.numberLength? scanner.rest = some length →
        scanner.position + length ≤ source.length
  /-- A window that is not full refuses no token, and one more token is counted in words. -/
  room : window.isFull = false → ∀ token, (∃ extended, window.push token = .ok extended) ∧
    window.stop + 1 < UInt32.size ∧ written + 1 < UInt32.size

variable {source : List UInt8} {scanner : Scanner} {window : Window Token}

/-- A scanner at the start of a source stands in it. -/
theorem standsIn_start (source : List UInt8) : (start source).StandsIn source :=
  ⟨Nat.zero_le _, rfl⟩

/-- What is left where a scanner stands is as long as the source is from there. -/
theorem StandsIn.length_rest (stands : scanner.StandsIn source) :
    scanner.position + scanner.rest.length = source.length := by
  have inside := stands.inside
  rw [stands.rest, List.length_drop]
  omega

/-- A scanner that stands in a source stands in it behind the next piece. -/
theorem StandsIn.advance (stands : scanner.StandsIn source) :
    (scanner.advance (Piece.leading scanner.rest).2).StandsIn source := by
  have bound := Piece.length_leading_le scanner.rest
  have length := stands.length_rest
  refine ⟨?_, ?_⟩
  · simp only [Scanner.advance]
    omega
  · simp only [Scanner.advance]
    rw [stands.rest, List.drop_drop]

/-- Wherever a fill comes to, its scanner stands in the source, and the window has gained as many
tokens as are written. -/
theorem Reaches.standsIn {standing : Scanner} {filled : Window Token} {written : Nat}
    (reaches : Reaches scanner window standing filled written) (stands : scanner.StandsIn source) :
    standing.StandsIn source ∧ filled.capacity = window.capacity ∧
      filled.stop = window.stop + written := by
  induction reaches with
  | start => exact ⟨stands, rfl, rfl⟩
  | trivia reaches free remains trivial ih => exact ⟨ih.1.advance, ih.2⟩
  | token reaches remains known accepted ih =>
    obtain ⟨stands, capacity, stop⟩ := ih
    refine ⟨stands.advance, (Window.room_push accepted).2.2.trans capacity, ?_⟩
    rw [Window.stop_push accepted, stop, Nat.add_assoc]

/-- Wherever a fill comes to, all that it relies on holds. -/
theorem Reaches.looksSafely {standing : Scanner} {filled : Window Token} {written : Nat}
    (reaches : Reaches scanner window standing filled written)
    (short : source.length < UInt32.size) (narrow : window.capacity ≤ Window.maxCapacity)
    (stands : scanner.StandsIn source) : standing.LooksSafely source filled written := by
  have limit : Window.maxCapacity + 1 = UInt32.size := rfl
  obtain ⟨stands, capacity, stop⟩ := reaches.standsIn stands
  have length := stands.length_rest
  refine ⟨stands, ⟨short, by omega⟩, fun remains => ?_, fun notFull token => ?_⟩
  · have positive := Piece.length_pos_leading remains
    have bound := Piece.length_leading_le standing.rest
    refine ⟨Nat.lt_add_of_pos_right positive, ?_, fun number found => ?_⟩
    · change standing.position + (Piece.leading standing.rest).2 ≤ source.length
      omega
    · have front := Piece.numberLength?_le found
      omega
  · have free : 0 < filled.room := Window.isFull_eq_false.mp notFull
    simp only [Window.room] at free
    exact ⟨Window.exists_push_eq_ok.mpr (by omega), by omega, by omega⟩

/-- A fill that has something left and a free slot comes to a further piece. -/
theorem Reaches.exists_further {standing : Scanner} {filled : Window Token} {written : Nat}
    (reaches : Reaches scanner window standing filled written) (free : 0 < filled.room)
    (remains : standing.rest ≠ []) : ∃ further filled' written',
      Reaches scanner window further filled' written' ∧
        further.rest.length < standing.rest.length := by
  have shorter := Piece.drop_leading_length_lt remains
  cases known : (Piece.leading standing.rest).1.kind? with
  | none => exact ⟨_, _, _, .trivia reaches free remains known, shorter⟩
  | some kind =>
    simp only [Window.room] at free
    obtain ⟨extended, accepted⟩ :=
      Window.exists_push_eq_ok.mpr (show filled.stop < filled.capacity by omega)
    exact ⟨_, _, _, .token reaches remains known accepted, shorter⟩

/-- A scan leaves a scanner standing in its source. -/
theorem StandsIn.scan (stands : scanner.StandsIn source) (window : Window Token) :
    (scanner.scan window).scanner.StandsIn source := by
  unfold Scanner.scan
  split
  · induction scanner, window using fill_induction with
    | full scanner window none_free same =>
      rw [same]
      exact stands
    | ending scanner window extended remains accepted same =>
      rw [same]
      exact ⟨stands.inside, stands.rest⟩
    | trivia scanner window free remains trivial same ih =>
      rw [same]
      exact ih stands.advance (by assumption)
    | token scanner window kind extended remains known accepted same ih =>
      rw [same]
      exact ih stands.advance (by assumption)
  · exact ⟨stands.inside, stands.rest⟩
  · exact ⟨stands.inside, stands.rest⟩

end Scanner

/-! ## Feeds -/

namespace TokenFeed

/-- Whether the scanner of a feed stands in a source, and the places in its window are words. -/
structure InPlace (source : List UInt8) (feed : TokenFeed) : Prop where
  stands : feed.scanner.StandsIn source
  narrow : feed.window.capacity ≤ Window.maxCapacity

variable {source : List UInt8} {feed : TokenFeed}

/-- A feed in place stays in place when it is refilled. -/
theorem InPlace.refill (place : feed.InPlace source) : feed.refill.1.InPlace source := by
  unfold TokenFeed.refill
  split
  · have kept := (Scanner.takes_scan feed.scanner feed.window.reset).capacity
    exact ⟨place.stands.scan _, Nat.le_trans (Nat.le_of_eq kept) place.narrow⟩
  · exact place

/-- A feed in place stays in place when it hands out a token. -/
theorem InPlace.next (place : feed.InPlace source) : feed.next.feed.InPlace source := by
  have after := place.refill
  unfold TokenFeed.next
  cases taken : feed.refill.1.window.pop? with
  | none =>
    simp only [taken]
    exact after
  | some pair =>
    simp only [taken]
    exact ⟨after.stands, Nat.le_trans (Nat.le_of_eq (Window.capacity_pop? taken)) after.narrow⟩

end TokenFeed

end LispReader
