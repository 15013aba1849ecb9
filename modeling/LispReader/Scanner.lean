import LispReader.Piece
import LispReader.Window

/-!
# Scanning in batches

A scanner holds what is left of a source and nothing else. Each call of `scan` fills the free slots
of a window with tokens and stops; the next call goes on from there. The end of the input is a
token of its own, so it too waits for room. Trouble in the source becomes error tokens together
with findings, and never stops a scan.
-/

namespace LispReader

/-- How far a scan has come; it only moves forward through the three phases. -/
inductive Phase where
  /-- Tokens are left to be written, the end of the input included. -/
  | scanning
  /-- The last call that wrote anything wrote the end of the input. -/
  | emittedEnd
  /-- Nothing will be written any more. -/
  | exhausted
  deriving DecidableEq, Inhabited

/-- A position in a source and what is left from there. -/
structure Scanner where
  position : Nat
  rest : List UInt8
  phase : Phase
  deriving DecidableEq

/-- What a call of `scan` leaves behind. -/
structure Scan where
  written : Nat
  scanner : Scanner
  window : Window Token
  findings : List Finding

namespace Scan

/-- The same scan with one more token at its front. -/
def counted (scan : Scan) (findings : List Finding) : Scan :=
  { scan with written := scan.written + 1, findings := findings ++ scan.findings }

end Scan

namespace Scanner

/-- The number of bytes from which a source is too long: positions are words of 32 bits. -/
def sourceLimit : Nat := UInt32.size

/-- A scanner at the start of a source. -/
def start (source : List UInt8) : Scanner := ⟨0, source, .scanning⟩

/-- The length of the whole source. -/
def sourceLength (scanner : Scanner) : Nat := scanner.position + scanner.rest.length

/-- The same scanner `length` bytes further on. -/
def advance (scanner : Scanner) (length : Nat) : Scanner :=
  { scanner with position := scanner.position + length, rest := scanner.rest.drop length }

/-- The first piece of what is left, and the span it covers. -/
def piece (scanner : Scanner) : Piece × Span :=
  let (piece, length) := Piece.leading scanner.rest
  (piece, ⟨scanner.position, scanner.position + length⟩)

/-- Fills the free slots of the window while tokens are left. -/
def fill (scanner : Scanner) (window : Window Token) : Scan :=
  if window.isFull then ⟨0, scanner, window, []⟩
  else if _ : scanner.rest = [] then
    match window.push ⟨.endOfInput, ⟨scanner.position, scanner.position⟩⟩ with
    | .ok window => ⟨1, { scanner with phase := .emittedEnd }, window, []⟩
    | .error _ => ⟨0, scanner, window, []⟩
  else
    let (piece, span) := scanner.piece
    let next := scanner.advance (Piece.leading scanner.rest).2
    match piece.kind? with
    | none => next.fill window
    | some kind =>
      match window.push ⟨kind, span⟩ with
      | .ok window => (next.fill window).counted (piece.findings span)
      | .error _ => ⟨0, next, window, piece.findings span⟩
  termination_by scanner.rest.length
  decreasing_by all_goals exact Piece.drop_leading_length_lt (by assumption)

/-- Writes the next tokens into the free slots of the window. After the end of the input has been
written nothing more is. -/
def scan (scanner : Scanner) (window : Window Token) : Scan :=
  match scanner.phase with
  | .scanning => scanner.fill window
  | .emittedEnd | .exhausted => ⟨0, { scanner with phase := .exhausted }, window, []⟩

/-- A fill stops when there is no room. -/
theorem fill_of_full {scanner : Scanner} {window : Window Token} (isFull : window.isFull = true) :
    scanner.fill window = ⟨0, scanner, window, []⟩ := by
  rw [fill, if_pos isFull]

/-- A fill goes on behind a piece that is no token. -/
theorem fill_of_trivia {scanner : Scanner} {window : Window Token} (free : 0 < window.room)
    (remains : scanner.rest ≠ []) (trivial : (Piece.leading scanner.rest).1.kind? = none) :
    scanner.fill window = (scanner.advance (Piece.leading scanner.rest).2).fill window := by
  have notFull : ¬ window.isFull = true := by simpa using Window.isFull_eq_false.mpr free
  cases found : scanner.piece with
  | mk piece span =>
    have first : (Piece.leading scanner.rest).1 = piece := congrArg Prod.fst found
    rw [fill, if_neg notFull, dif_neg remains, found]
    simp only [first ▸ trivial]

/-- A fill goes on behind a piece that is a token, once this has been written. -/
theorem fill_of_token {scanner : Scanner} {window extended : Window Token} {kind : TokenKind}
    (remains : scanner.rest ≠ []) (known : (Piece.leading scanner.rest).1.kind? = some kind)
    (accepted : window.push ⟨kind, scanner.piece.2⟩ = .ok extended) :
    scanner.fill window = ((scanner.advance (Piece.leading scanner.rest).2).fill extended).counted
      (scanner.piece.1.findings scanner.piece.2) := by
  have notFull : ¬ window.isFull = true := by
    obtain ⟨taken, -, -⟩ := Window.room_push accepted
    simpa using Window.isFull_eq_false.mpr (show 0 < window.room by omega)
  cases found : scanner.piece with
  | mk piece span =>
    have first : (Piece.leading scanner.rest).1 = piece := congrArg Prod.fst found
    rw [found] at accepted
    rw [fill, if_neg notFull, dif_neg remains, found]
    simp only [first ▸ known, accepted]

/-- Induction on the pieces that a fill looks at. A window with room refuses no token, so a fill only
stops when there is no room or the end of the input has been written. -/
theorem fill_induction {motive : Scanner → Window Token → Prop} (scanner : Scanner)
    (window : Window Token)
    (full : ∀ scanner window, window.room = 0 →
      scanner.fill window = ⟨0, scanner, window, []⟩ → motive scanner window)
    (ending : ∀ scanner window extended, scanner.rest = [] →
      window.push (.endOfInput scanner.position) = .ok extended →
      scanner.fill window = ⟨1, { scanner with phase := .emittedEnd }, extended, []⟩ →
      motive scanner window)
    (trivia : ∀ scanner window, 0 < window.room → scanner.rest ≠ [] →
      (Piece.leading scanner.rest).1.kind? = none →
      scanner.fill window = (scanner.advance (Piece.leading scanner.rest).2).fill window →
      motive (scanner.advance (Piece.leading scanner.rest).2) window → motive scanner window)
    (token : ∀ scanner window kind extended, scanner.rest ≠ [] →
      (Piece.leading scanner.rest).1.kind? = some kind →
      window.push ⟨kind, scanner.piece.2⟩ = .ok extended →
      scanner.fill window = ((scanner.advance (Piece.leading scanner.rest).2).fill extended).counted
        (scanner.piece.1.findings scanner.piece.2) →
      motive (scanner.advance (Piece.leading scanner.rest).2) extended → motive scanner window) :
    motive scanner window := by
  induction scanner, window using fill.induct with
  | case1 scanner window isFull =>
    refine full scanner window ?_ ?_
    · rw [Window.room, beq_iff_eq.mp isFull, Nat.sub_self]
    · exact fill_of_full isFull
  | case2 scanner window notFull remains extended accepted =>
    refine ending scanner window extended remains accepted ?_
    rw [fill, if_neg notFull, dif_pos remains, accepted]
  | case3 scanner window notFull remains back refused =>
    exact absurd refused (Window.push_ne_error notFull)
  | case4 scanner window notFull remains piece span found next trivial ih =>
    have free := Window.isFull_eq_false.mp (Bool.eq_false_iff.mpr notFull)
    have first : scanner.piece.1 = piece := congrArg Prod.fst found
    rw [← first] at trivial
    exact trivia scanner window free remains trivial (fill_of_trivia free remains trivial) ih
  | case5 scanner window notFull remains piece span found next kind known extended accepted ih =>
    have first : scanner.piece.1 = piece := congrArg Prod.fst found
    have covered : scanner.piece.2 = span := congrArg Prod.snd found
    rw [← first] at known
    rw [← covered] at accepted
    exact token scanner window kind extended remains known accepted
      (fill_of_token remains known accepted) ih
  | case6 scanner window notFull remains piece span found kind known back refused =>
    exact absurd refused (Window.push_ne_error notFull)

/-! ## Tokens still to come -/

/-- A bound on the tokens that a scanner will still write. -/
def pending (scanner : Scanner) : Nat :=
  match scanner.phase with
  | .scanning => scanner.rest.length + 1
  | .emittedEnd | .exhausted => 0

/-- Every token that a fill adds to the window is one fewer to come. -/
theorem length_add_pending_fill (scanner : Scanner) (window : Window Token)
    (scanning : scanner.phase = .scanning) :
    (scanner.fill window).window.length + (scanner.fill window).scanner.pending ≤
      window.length + scanner.pending := by
  induction scanner, window using fill_induction with
  | full scanner window none_free same => exact Nat.le_of_eq (by rw [same])
  | ending scanner window extended remains accepted same =>
    have longer := Window.length_push accepted
    rw [same]
    simp only [pending, scanning]
    omega
  | trivia scanner window free remains trivial same ih =>
    have step := ih scanning
    have shorter := Piece.drop_leading_length_lt remains
    rw [same]
    simp only [pending, scanning, advance] at step ⊢
    omega
  | token scanner window kind extended remains known accepted same ih =>
    have step := ih scanning
    have longer := Window.length_push accepted
    have shorter := Piece.drop_leading_length_lt remains
    rw [same]
    simp only [Scan.counted, pending, scanning, advance] at step ⊢
    omega

/-- Every token that a scan adds to the window is one fewer to come. -/
theorem length_add_pending_scan (scanner : Scanner) (window : Window Token) :
    (scanner.scan window).window.length + (scanner.scan window).scanner.pending ≤
      window.length + scanner.pending := by
  unfold scan
  split
  · exact length_add_pending_fill scanner window (by assumption)
  all_goals simp [pending]

end Scanner

end LispReader
