import LispReader.Scanner

/-!
# The tokens of a source

What a source is cut into does not depend on any window: every piece that is not trivia gives one
token, and after the last piece comes the end of the input. A call of `scan` takes as many of the
tokens still to come as its window has room for, together with their findings, and leaves a scanner
with exactly the others to come.
-/

namespace LispReader

/-! ## Pieces that become tokens -/

namespace TokenKind

/-- Whether tokens of the kind are parentheses or apostrophes. -/
def isMark : TokenKind → Bool
  | .leftParen | .rightParen | .quote => true
  | .atom | .integer | .float | .string | .endOfInput | .error => false

end TokenKind

namespace Piece

/-- What a piece of `length` bytes may be: no token is the end of the input or an error, parentheses
and apostrophes are single bytes, and what is wrong with a malformed run is a lexical matter. -/
def Sound (length : Nat) : Piece → Prop
  | .trivia => True
  | .token kind => kind ≠ .endOfInput ∧ kind ≠ .error ∧ (kind.isMark = true → length = 1)
  | .malformed cause => cause.isLexical = true

/-- The piece that starts with a number is sound. -/
theorem sound_ofNumber (input : List UInt8) (length : Nat) :
    (ofNumber input length).1.Sound (ofNumber input length).2 := by
  unfold ofNumber
  split
  · cases (input.take length).contains Byte.point
    · simp [Sound, TokenKind.isMark]
    · simp [Sound, TokenKind.isMark]
  · rfl

/-- The piece that starts with any other byte is sound. -/
theorem sound_ofOther (byte : UInt8) (rest : List UInt8) :
    (ofOther byte rest).1.Sound (ofOther byte rest).2 := by
  unfold ofOther
  split
  · simp [Sound, TokenKind.isMark]
  · repeat' split
    all_goals rfl

/-- The first piece of a source is sound. -/
theorem sound_leading (input : List UInt8) : (leading input).1.Sound (leading input).2 := by
  cases input with
  | nil => trivial
  | cons byte rest =>
    simp only [leading]
    repeat' split
    any_goals simp [Sound, TokenKind.isMark]
    · rfl
    · exact sound_ofNumber _ _
    · exact sound_ofOther byte rest

/-- The token of a sound piece is not the end of the input. -/
theorem Sound.kind_ne_endOfInput {piece : Piece} {length : Nat} {kind : TokenKind}
    (sound : piece.Sound length) (known : piece.kind? = some kind) : kind ≠ .endOfInput := by
  cases piece with
  | trivia => cases known
  | token other =>
    cases known
    exact sound.1
  | malformed cause =>
    cases known
    decide

/-- A piece that is no trivia has at least one byte. -/
theorem length_pos_of_leading {input : List UInt8} {piece : Piece} {length : Nat}
    (found : leading input = (piece, length)) (proper : piece ≠ .trivia) : 0 < length := by
  have nonempty : input ≠ [] := by
    rintro rfl
    cases found
    exact proper rfl
  have positive := length_pos_leading nonempty
  rw [found] at positive
  exact positive

/-- Where a source ends does not depend on how much of it has been cut off. -/
theorem add_length_drop (position : Nat) {count : Nat} {input : List UInt8}
    (inside : count ≤ input.length) :
    position + count + (input.drop count).length = position + input.length := by
  rw [List.length_drop, Nat.add_assoc, Nat.add_sub_cancel' inside]

end Piece

/-- A token and what was found wrong with the bytes it covers. -/
structure ReportedToken where
  token : Token
  findings : List Finding

namespace ReportedToken

/-- The token of the first piece of `input`, which stands `position` bytes into a source. -/
def leading (kind : TokenKind) (position : Nat) (input : List UInt8) : ReportedToken :=
  let (piece, length) := Piece.leading input
  ⟨⟨kind, ⟨position, position + length⟩⟩, piece.findings ⟨position, position + length⟩⟩

/-- The tokens that may arise from `input` when it stands `position` bytes into a source: its end,
and the token of any piece that some of its bytes stand in front of. -/
inductive Arises (position : Nat) (input : List UInt8) : ReportedToken → Prop
  | ending : Arises position input ⟨.endOfInput (position + input.length), []⟩
  | token (skipped length : Nat) (kind : TokenKind)
      (found : Piece.leading (input.drop skipped) = (.token kind, length)) :
      Arises position input
        ⟨⟨kind, ⟨position + skipped, position + skipped + length⟩⟩, []⟩
  | malformed (skipped length : Nat) (cause : Cause)
      (found : Piece.leading (input.drop skipped) = (.malformed cause, length)) :
      Arises position input
        ⟨⟨.error, ⟨position + skipped, position + skipped + length⟩⟩,
          [⟨cause, ⟨position + skipped, position + skipped + length⟩⟩]⟩

/-- The token of the first piece of a source arises from it. -/
theorem arises_leading {position : Nat} {input : List UInt8} {kind : TokenKind}
    (known : (Piece.leading input).1.kind? = some kind) :
    (leading kind position input).Arises position input := by
  unfold leading
  cases found : Piece.leading input with
  | mk piece length =>
    rw [found] at known
    cases piece with
    | trivia => cases known
    | token other =>
      cases known
      exact .token 0 length kind found
    | malformed cause =>
      cases known
      exact .malformed 0 length cause found

/-- What arises from the end of a source arises from all of it. -/
theorem Arises.of_drop {position count : Nat} {input : List UInt8} {reported : ReportedToken}
    (arises : reported.Arises (position + count) (input.drop count))
    (inside : count ≤ input.length) : reported.Arises position input := by
  cases arises with
  | ending =>
    rw [Piece.add_length_drop position inside]
    exact .ending
  | token skipped length kind found =>
    rw [List.drop_drop] at found
    rw [Nat.add_assoc position]
    exact .token (count + skipped) length kind found
  | malformed skipped length cause found =>
    rw [List.drop_drop] at found
    rw [Nat.add_assoc position]
    exact .malformed (count + skipped) length cause found

end ReportedToken

namespace Scanner

/-- The tokens that `input` is cut into when it stands `position` bytes into a source. -/
def cut (position : Nat) (input : List UInt8) : List ReportedToken :=
  if _ : input = [] then [⟨.endOfInput position, []⟩]
  else
    let rest := cut (position + (Piece.leading input).2) (input.drop (Piece.leading input).2)
    match (Piece.leading input).1.kind? with
    | none => rest
    | some kind => ReportedToken.leading kind position input :: rest
  termination_by input.length
  decreasing_by exact Piece.drop_leading_length_lt (by assumption)

/-- The tokens that a scanner has not written yet. -/
def upcoming (scanner : Scanner) : List ReportedToken :=
  match scanner.phase with
  | .scanning => cut scanner.position scanner.rest
  | .emittedEnd | .exhausted => []

/-! ## Cutting -/

/-- An empty source is only its end. -/
@[simp] theorem cut_nil (position : Nat) : cut position [] = [⟨.endOfInput position, []⟩] := by
  rw [cut]
  rfl

/-- Trivia in front gives no token. -/
theorem cut_of_trivia {position : Nat} {input : List UInt8} (nonempty : input ≠ [])
    (trivial : (Piece.leading input).1.kind? = none) :
    cut position input =
      cut (position + (Piece.leading input).2) (input.drop (Piece.leading input).2) := by
  rw [cut, dif_neg nonempty]
  simp only [trivial]

/-- Any other piece in front gives one token. -/
theorem cut_of_kind {position : Nat} {input : List UInt8} {kind : TokenKind}
    (nonempty : input ≠ []) (known : (Piece.leading input).1.kind? = some kind) :
    cut position input =
      ReportedToken.leading kind position input ::
        cut (position + (Piece.leading input).2) (input.drop (Piece.leading input).2) := by
  rw [cut, dif_neg nonempty]
  simp only [known]

/-- Induction on what is left of a source, piece by piece. -/
theorem cut_induction {motive : Nat → List UInt8 → Prop} (position : Nat) (input : List UInt8)
    (nil : ∀ position, motive position [])
    (trivia : ∀ position input, input ≠ [] → (Piece.leading input).1.kind? = none →
      motive (position + (Piece.leading input).2) (input.drop (Piece.leading input).2) →
      motive position input)
    (token : ∀ position input kind, input ≠ [] → (Piece.leading input).1.kind? = some kind →
      motive (position + (Piece.leading input).2) (input.drop (Piece.leading input).2) →
      motive position input) : motive position input := by
  induction measured : input.length using Nat.strongRecOn generalizing position input with
  | _ size ih =>
    by_cases empty : input = []
    · rw [empty]
      exact nil position
    · have shorter := Piece.drop_leading_length_lt empty
      have rest := ih _ (measured ▸ shorter) (position + (Piece.leading input).2) _ rfl
      cases found : (Piece.leading input).1.kind? with
      | none => exact trivia position input empty found rest
      | some kind => exact token position input kind empty found rest

/-- The end of the input comes once, and last. -/
theorem cut_eq_append_endOfInput (position : Nat) (input : List UInt8) :
    ∃ front, cut position input = front ++ [⟨.endOfInput (position + input.length), []⟩] ∧
      ∀ reported ∈ front, reported.token.kind ≠ .endOfInput := by
  induction position, input using cut_induction with
  | nil position => exact ⟨[], by simp, by simp⟩
  | trivia position input nonempty trivial ih =>
    obtain ⟨front, same, inner⟩ := ih
    rw [Piece.add_length_drop position (Piece.length_leading_le input)] at same
    exact ⟨front, (cut_of_trivia nonempty trivial).trans same, inner⟩
  | token position input kind nonempty known ih =>
    obtain ⟨front, same, inner⟩ := ih
    rw [Piece.add_length_drop position (Piece.length_leading_le input)] at same
    refine ⟨.leading kind position input :: front, ?_, ?_⟩
    · rw [cut_of_kind nonempty known, same, List.cons_append]
    · intro reported member
      rcases List.mem_cons.mp member with rfl | later
      · intro ending
        exact (Piece.sound_leading input).kind_ne_endOfInput known ending
      · exact inner reported later

/-- A source is cut into its end at least. -/
theorem cut_ne_nil (position : Nat) (input : List UInt8) : cut position input ≠ [] := by
  obtain ⟨front, same, -⟩ := cut_eq_append_endOfInput position input
  simp [same]

/-- Every token that a source is cut into arises from it. -/
theorem arises_of_mem_cut {position : Nat} {input : List UInt8} {reported : ReportedToken}
    (member : reported ∈ cut position input) : reported.Arises position input := by
  induction position, input using cut_induction with
  | nil position =>
    rw [cut_nil, List.mem_singleton] at member
    rw [member]
    exact .ending
  | trivia position input nonempty trivial ih =>
    exact (ih (cut_of_trivia nonempty trivial ▸ member)).of_drop (Piece.length_leading_le input)
  | token position input kind nonempty known ih =>
    rw [cut_of_kind nonempty known] at member
    rcases List.mem_cons.mp member with first | later
    · rw [first]
      exact ReportedToken.arises_leading known
    · exact (ih later).of_drop (Piece.length_leading_le input)

end Scanner

/-! ## What a call takes -/

namespace Scan

/-- The tokens that a call appended to the window it was given. -/
def appended (scan : Scan) (window : Window Token) : List Token :=
  scan.window.toList.drop window.length

/-- A call that was given `window` and had the tokens `upcoming` still to come: it takes as many of
them as there is room for. -/
structure Takes (scan : Scan) (window : Window Token) (upcoming : List ReportedToken) : Prop where
  written : scan.written = min window.room upcoming.length
  toList : scan.window.toList =
    window.toList ++ (upcoming.take window.room).map ReportedToken.token
  findings : scan.findings = (upcoming.take window.room).flatMap ReportedToken.findings
  upcoming : scan.scanner.upcoming = upcoming.drop window.room
  start : scan.window.start = window.start
  capacity : scan.window.capacity = window.capacity

/-- A call without room takes nothing. -/
theorem takes_of_full {scan : Scan} {window : Window Token} {upcoming : List ReportedToken}
    (full : window.room = 0) (same : scan = ⟨0, scan.scanner, window, []⟩)
    (left : scan.scanner.upcoming = upcoming) : scan.Takes window upcoming := by
  rw [same]
  exact ⟨by simp [full], by simp [full], by simp [full], by simpa [full] using left, rfl, rfl⟩

/-- The token of a call that goes on with a window one longer. -/
theorem Takes.cons {scan : Scan} {window extended : Window Token} {upcoming : List ReportedToken}
    (reported : ReportedToken) (accepted : window.push reported.token = .ok extended)
    (takes : scan.Takes extended upcoming) :
    (scan.counted reported.findings).Takes window (reported :: upcoming) := by
  obtain ⟨room, start, capacity⟩ := Window.room_push accepted
  refine ⟨?_, ?_, ?_, ?_, takes.start.trans start, takes.capacity.trans capacity⟩
  · change scan.written + 1 = _
    rw [takes.written, room, List.length_cons]
    omega
  · change scan.window.toList = _
    rw [takes.toList, Window.toList_push accepted, room, List.take_succ_cons, List.map_cons,
      List.append_assoc, List.singleton_append]
  · change reported.findings ++ scan.findings = _
    rw [takes.findings, room, List.take_succ_cons, List.flatMap_cons]
  · change scan.scanner.upcoming = _
    rw [takes.upcoming, room, List.drop_succ_cons]

/-- The appended tokens are those that were still to come, as far as there was room. -/
theorem Takes.appended {scan : Scan} {window : Window Token} {upcoming : List ReportedToken}
    (takes : scan.Takes window upcoming) :
    scan.appended window = (upcoming.take window.room).map ReportedToken.token := by
  rw [Scan.appended, takes.toList, ← Window.length_toList, List.drop_left]

end Scan

namespace Scanner

/-- Filling a window takes the tokens in front. -/
theorem takes_fill (scanner : Scanner) (window : Window Token)
    (scanning : scanner.phase = .scanning) :
    (scanner.fill window).Takes window (cut scanner.position scanner.rest) := by
  induction scanner, window using fill_induction with
  | full scanner window none_free same =>
    rw [same]
    exact Scan.takes_of_full none_free rfl (by simp [upcoming, scanning])
  | ending scanner window extended remains accepted same =>
    have only : cut scanner.position scanner.rest =
        [⟨.endOfInput scanner.position, []⟩] := by rw [remains, cut_nil]
    have done : Scan.Takes ⟨0, { scanner with phase := .emittedEnd }, extended, []⟩ extended [] :=
      ⟨by simp, by simp, by simp, by simp [upcoming], rfl, rfl⟩
    rw [same, only]
    exact done.cons ⟨.endOfInput scanner.position, []⟩ accepted
  | trivia scanner window free remains trivial same ih =>
    rw [same, cut_of_trivia remains trivial]
    exact ih scanning
  | token scanner window kind extended remains known accepted same ih =>
    rw [same, cut_of_kind remains known]
    exact (ih scanning).cons (ReportedToken.leading kind scanner.position scanner.rest) accepted

/-- Every call takes the tokens still to come, as far as there is room. -/
theorem takes_scan (scanner : Scanner) (window : Window Token) :
    (scanner.scan window).Takes window scanner.upcoming := by
  cases phase : scanner.phase with
  | scanning =>
    simp only [scan, upcoming, phase]
    exact takes_fill scanner window phase
  | emittedEnd | exhausted =>
    simp only [scan, upcoming, phase]
    exact ⟨by simp, by simp, by simp, by simp [upcoming], rfl, rfl⟩

/-- Nothing is still to come exactly when the end of the input has been written. -/
theorem upcoming_eq_nil {scanner : Scanner} :
    scanner.upcoming = [] ↔ scanner.phase ≠ .scanning := by
  unfold upcoming
  split
  · rename_i scanning
    obtain ⟨front, same, -⟩ := cut_eq_append_endOfInput scanner.position scanner.rest
    simp [same, scanning]
  all_goals simp_all

/-! ## Whole sources -/

end Scanner

namespace Window

/-- An empty window over `count` unused slots. -/
def blank (count : Nat) : Window Token :=
  ⟨Array.replicate count .blank, 0, 0, Nat.le_refl Nat.zero, Nat.zero_le _⟩

/-- All slots of an unused window are free. -/
@[simp] theorem room_blank (count : Nat) : (blank count).room = count := by
  simp [blank, room, capacity]

end Window

namespace Scanner

/-- The tokens of a source: what one call writes that has room for a token from every byte and for
the end of the input. -/
def tokens (source : List UInt8) : List Token :=
  ((start source).scan (.blank (source.length + 1))).appended (.blank (source.length + 1))

/-- A source is cut into no more tokens than it has bytes, its end not counted. -/
theorem length_cut_le (position : Nat) (input : List UInt8) :
    (cut position input).length ≤ input.length + 1 := by
  induction position, input using cut_induction with
  | nil position => simp
  | trivia position input nonempty trivial ih =>
    have := Piece.drop_leading_length_lt nonempty
    rw [cut_of_trivia nonempty trivial]
    omega
  | token position input kind nonempty known ih =>
    have := Piece.drop_leading_length_lt nonempty
    rw [cut_of_kind nonempty known, List.length_cons]
    omega

/-- The tokens of a source are those that it is cut into from its first byte on. -/
theorem tokens_eq_cut (source : List UInt8) :
    tokens source = (cut 0 source).map ReportedToken.token := by
  have enough := length_cut_le 0 source
  rw [tokens, (takes_scan (start source) _).appended, Window.room_blank]
  change ((cut 0 source).take _).map _ = _
  rw [List.take_of_length_le enough]

/-- The last token of a source, and only that, is its end. -/
theorem tokens_eq_append_endOfInput (source : List UInt8) :
    ∃ front, tokens source = front ++ [.endOfInput source.length] ∧
      ∀ token ∈ front, token.kind ≠ .endOfInput := by
  obtain ⟨front, same, inner⟩ := cut_eq_append_endOfInput 0 source
  refine ⟨front.map ReportedToken.token, ?_, ?_⟩
  · rw [tokens_eq_cut, same, Nat.zero_add, List.map_append]
    rfl
  · intro token member
    obtain ⟨reported, found, rfl⟩ := List.mem_map.mp member
    exact inner reported found

/-- The end of the input is the end of the source. -/
theorem eq_endOfInput {source : List UInt8} {token : Token} (member : token ∈ tokens source)
    (ending : token.kind = .endOfInput) : token = .endOfInput source.length := by
  obtain ⟨front, listed, inner⟩ := tokens_eq_append_endOfInput source
  rw [listed] at member
  rcases List.mem_append.mp member with earlier | last
  · exact absurd ending (inner token earlier)
  · exact List.mem_singleton.mp last

end Scanner

end LispReader
