import LispReader.Proofs.TokenStream

/-!
# Scanning under any schedule

A scanner may be given windows of any size, in any state and in any number. The calls together
take the tokens of the source from the front, as many as all windows together have room for, and
the findings made so far are those of the error tokens taken. Where the calls pause leaves no mark,
because what a call takes depends only on what is still to come.
-/

namespace LispReader

/-- What a row of calls leaves behind: the tokens they appended and the findings they made, both in
the order of the calls, and the scanner. -/
structure ScanLog where
  tokens : List Token
  findings : List Finding
  scanner : Scanner

namespace Scanner

/-- Calls `scan` once for each window of a schedule, always on the scanner that the call before
left behind. -/
def scanEach (scanner : Scanner) : List (Window Token) → ScanLog
  | [] => ⟨[], [], scanner⟩
  | window :: schedule =>
    let scan := scanner.scan window
    let log := scan.scanner.scanEach schedule
    ⟨scan.appended window ++ log.tokens, scan.findings ++ log.findings, log.scanner⟩

/-- The room that all windows of a schedule offer together. -/
def offered : List (Window Token) → Nat
  | [] => 0
  | window :: schedule => window.room + offered schedule

/-- A row of calls takes the tokens still to come as one call does that is offered all the room. -/
theorem scanEach_eq_take (scanner : Scanner) (schedule : List (Window Token)) :
    (scanner.scanEach schedule).tokens =
        (scanner.upcoming.take (offered schedule)).map ReportedToken.token ∧
      (scanner.scanEach schedule).findings =
        (scanner.upcoming.take (offered schedule)).flatMap ReportedToken.findings ∧
      (scanner.scanEach schedule).scanner.upcoming = scanner.upcoming.drop (offered schedule) := by
  induction schedule generalizing scanner with
  | nil => exact ⟨rfl, rfl, rfl⟩
  | cons window schedule ih =>
    have first := takes_scan scanner window
    obtain ⟨tokens, findings, left⟩ := ih (scanner.scan window).scanner
    rw [first.upcoming] at tokens findings left
    have room : offered (window :: schedule) = window.room + offered schedule := rfl
    refine ⟨?_, ?_, ?_⟩
    · change (scanner.scan window).appended window ++ _ = _
      rw [tokens, first.appended, room, List.take_add, List.map_append]
    · change (scanner.scan window).findings ++ _ = _
      rw [findings, first.findings, room, List.take_add, List.flatMap_append]
    · change ((scanner.scan window).scanner.scanEach schedule).scanner.upcoming = _
      rw [left, room, List.drop_drop]

/-! ## Findings and error tokens -/

/-- An error token has one finding, about the bytes it covers, and any other token has none. -/
theorem findings_cut {position : Nat} {input : List UInt8} {reported : ReportedToken}
    (member : reported ∈ cut position input) :
    reported.findings.map Finding.span =
      ([reported.token].filter (·.kind = .error)).map Token.span := by
  cases arises_of_mem_cut member with
  | ending => rfl
  | token skipped length kind found =>
    have sound := Piece.sound_leading (input.drop skipped)
    rw [found] at sound
    simp [sound.2.1]
  | malformed skipped length cause found => rfl

/-- The findings of a run of tokens are about its error tokens, one for each, in order. -/
theorem span_flatMap_findings {position : Nat} {input : List UInt8} (run : List ReportedToken)
    (within : ∀ reported ∈ run, reported ∈ cut position input) :
    (run.flatMap ReportedToken.findings).map Finding.span =
      ((run.map ReportedToken.token).filter (·.kind = .error)).map Token.span := by
  induction run with
  | nil => rfl
  | cons reported run ih =>
    have first := findings_cut (within reported List.mem_cons_self)
    have rest := ih fun other member => within other (List.mem_cons_of_mem _ member)
    rw [List.flatMap_cons, List.map_append, first, rest, ← List.map_append, ← List.filter_append]
    rfl

/-- The findings of the first tokens of a source are the first of its findings, as many as there
are error tokens among those tokens. -/
theorem flatMap_findings_take (source : List UInt8) (count : Nat) :
    ((cut 0 source).take count).flatMap ReportedToken.findings =
      ((cut 0 source).flatMap ReportedToken.findings).take
        ((((cut 0 source).take count).map ReportedToken.token).countP (·.kind = .error)) := by
  have spans := congrArg List.length <|
    span_flatMap_findings ((cut 0 source).take count) fun _ member => List.mem_of_mem_take member
  rw [List.length_map, List.length_map, ← List.countP_eq_length_filter] at spans
  rw [← spans]
  apply List.prefix_iff_eq_take.mp
  refine ⟨((cut 0 source).drop count).flatMap ReportedToken.findings, ?_⟩
  rw [← List.flatMap_append, List.take_append_drop]

/-! ## Chunk invariance -/

/-- A call that reaches the end of the input takes every token and makes every finding. -/
theorem scan_of_emittedEnd {source : List UInt8} {single : Window Token}
    (large : ((start source).scan single).scanner.phase = .emittedEnd) :
    ((start source).scan single).appended single = tokens source ∧
      ((start source).scan single).findings =
        (cut 0 source).flatMap ReportedToken.findings := by
  have takes := takes_scan (start source) single
  have drained : (start source).upcoming.drop single.room = [] := by
    rw [← takes.upcoming, upcoming_eq_nil, large]
    decide
  have everything : (start source).upcoming.take single.room = cut 0 source :=
    List.take_of_length_le (List.drop_eq_nil_iff.mp drained)
  constructor
  · rw [takes.appended, everything, tokens_eq_cut]
  · rw [takes.findings, everything]

/-- Filling a window does not go past writing the end of the input. -/
theorem phase_fill_ne_exhausted (scanner : Scanner) (window : Window Token)
    (scanning : scanner.phase = .scanning) :
    (scanner.fill window).scanner.phase ≠ .exhausted := by
  induction scanner, window using fill_induction with
  | full scanner window none_free same => simp [same, scanning]
  | ending scanner window extended remains accepted same => simp [same]
  | trivia scanner window free remains trivial same ih =>
    rw [same]
    exact ih scanning
  | token scanner window kind extended remains known accepted same ih =>
    rw [same]
    exact ih scanning

/-- A window with more slots than the source has bytes is large enough for one call. -/
theorem phase_scan_of_room {source : List UInt8} {single : Window Token}
    (enough : source.length < single.room) :
    ((start source).scan single).scanner.phase = .emittedEnd := by
  have drained : ((start source).scan single).scanner.phase ≠ .scanning := by
    rw [← upcoming_eq_nil, (takes_scan (start source) single).upcoming, List.drop_eq_nil_iff]
    exact Nat.le_trans (length_cut_le 0 source) enough
  have inside : ((start source).scan single).scanner.phase ≠ .exhausted :=
    phase_fill_ne_exhausted (start source) single rfl
  cases phase : ((start source).scan single).scanner.phase with
  | scanning => exact absurd phase drained
  | emittedEnd => rfl
  | exhausted => exact absurd phase inside

/-- A call with room for a token from every byte and for the end of the input makes every finding. -/
theorem findings_scan_blank (source : List UInt8) :
    ((start source).scan (.blank (source.length + 1))).findings =
      (cut 0 source).flatMap ReportedToken.findings := by
  have enough : source.length < (Window.blank (source.length + 1)).room := by
    rw [Window.room_blank]
    exact Nat.lt_succ_self _
  exact (scan_of_emittedEnd (phase_scan_of_room enough)).2

/-- Whatever the schedule, the calls take the tokens of one call that reaches the end of the input,
from the front, as many as there is room for; and the findings made so far are those of that one
call about the error tokens taken. Once there is room for all, nothing is left to the schedule. -/
theorem scanEach_prefix_scan (source : List UInt8) (schedule : List (Window Token))
    (single : Window Token)
    (large : ((start source).scan single).scanner.phase = .emittedEnd) :
    let whole := (start source).scan single
    let tokens := whole.appended single
    let log := (start source).scanEach schedule
    log.tokens <+: tokens ∧
      log.tokens.length = min tokens.length (offered schedule) ∧
      whole.findings.map Finding.span = (tokens.filter (·.kind = .error)).map Token.span ∧
      log.findings = whole.findings.take (log.tokens.countP (·.kind = .error)) ∧
      (tokens.length ≤ offered schedule →
        log.tokens = tokens ∧ log.findings = whole.findings) ∧
      ∃ front, tokens = front ++ [.endOfInput source.length] ∧
        ∀ token ∈ front, token.kind ≠ .endOfInput := by
  intro whole tokens log
  have allTokens : tokens = Scanner.tokens source := (scan_of_emittedEnd large).1
  have allFindings : whole.findings = (cut 0 source).flatMap ReportedToken.findings :=
    (scan_of_emittedEnd large).2
  obtain ⟨logTokens, logFindings, -⟩ := scanEach_eq_take (start source) schedule
  change log.tokens = ((cut 0 source).take (offered schedule)).map ReportedToken.token at logTokens
  have taken : log.tokens = tokens.take (offered schedule) := by
    rw [allTokens, tokens_eq_cut, logTokens, List.map_take]
  have found : log.findings = whole.findings.take (log.tokens.countP (·.kind = .error)) := by
    rw [allFindings, logTokens]
    exact logFindings.trans (flatMap_findings_take source (offered schedule))
  have spans : whole.findings.map Finding.span =
      (tokens.filter (·.kind = .error)).map Token.span := by
    rw [allFindings, allTokens, tokens_eq_cut]
    exact span_flatMap_findings (cut 0 source) fun _ member => member
  refine ⟨?_, ?_, spans, found, ?_, ?_⟩
  · rw [taken]
    exact List.take_prefix _ _
  · rw [taken, List.length_take, Nat.min_comm]
  · intro enough
    have complete : log.tokens = tokens := by rw [taken, List.take_of_length_le enough]
    refine ⟨complete, ?_⟩
    have counted := congrArg List.length spans
    rw [List.length_map, List.length_map, ← List.countP_eq_length_filter] at counted
    rw [found, complete, ← counted, List.take_length]
  · rw [allTokens]
    exact tokens_eq_append_endOfInput source

/-- A list around a stray point, scanned with a pause after every token and one call without room:
the finding comes with the second token. -/
theorem scanEach_prefix_scan_pausing :
    let source : List UInt8 := [Byte.leftParen, Byte.point, Byte.rightParen]
    let whole := (start source).scan (.blank 4)
    let log := (start source).scanEach [.blank 1, .blank 0, .blank 1]
    whole.scanner.phase = .emittedEnd ∧ log.tokens <+: whole.appended (.blank 4) ∧
      log.findings = whole.findings.take (log.tokens.countP (·.kind = .error)) :=
  have large := phase_scan_of_room (by decide)
  have prefixed := scanEach_prefix_scan [Byte.leftParen, Byte.point, Byte.rightParen]
    [.blank 1, .blank 0, .blank 1] (.blank 4) large
  ⟨large, prefixed.1, prefixed.2.2.2.1⟩

end Scanner

end LispReader
