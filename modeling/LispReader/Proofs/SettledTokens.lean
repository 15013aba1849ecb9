import LispReader.Proofs.Acceptance
import LispReader.Proofs.LookAhead

/-!
# Settled tokens

A token with two more bytes of the source behind it is settled: whatever is added at the end, it
stays the token that it is, and so do the tokens before it and what is found wrong with them. One
byte is not enough, because a point may turn out to open the fraction of the number in front of it.
-/

namespace LispReader

open Lexeme

/-- The token of a piece covers what the piece covers. -/
theorem Piece.span_of_mem_reported {piece : Piece} {span : Span} {reported : ReportedToken}
    (member : reported ∈ piece.reported span) : reported.token.span = span := by
  unfold Piece.reported at member
  split at member
  · cases member
  · rw [List.mem_singleton.mp member]

namespace Scanner

/-- Whether a token has two bytes behind it in a source that ends at a position. -/
def IsSettled (stop : Nat) (token : Token) : Prop :=
  token.kind ≠ .endOfInput ∧ token.span.stop + 2 ≤ stop

instance (stop : Nat) : DecidablePred (IsSettled stop) :=
  fun _ => inferInstanceAs (Decidable (_ ∧ _))

/-- A token that stops before the end of a source is not that end. -/
theorem kind_ne_endOfInput_of_stop_lt {position : Nat} {input : List UInt8}
    {reported : ReportedToken} (member : reported ∈ cut position input)
    (inside : reported.token.span.stop < position + input.length) :
    reported.token.kind ≠ .endOfInput := by
  cases arises_of_mem_cut member with
  | ending => exact absurd inside (Nat.lt_irrefl _)
  | token skipped length kind found =>
    have sound := Piece.sound_leading (input.drop skipped)
    rw [found] at sound
    exact sound.1
  | malformed =>
    intro ending
    cases ending

/-- The tokens of a source are settled up to one, and from there on none is. The first of them are
the first tokens of the source with more input behind it, too. -/
theorem exists_settled (position : Nat) (input more : List UInt8) :
    ∃ front rest rest', cut position input = front ++ rest ∧
      cut position (input ++ more) = front ++ rest' ∧
      (∀ reported ∈ front, IsSettled (position + input.length) reported.token) ∧
      ∀ reported ∈ rest, ¬ IsSettled (position + input.length) reported.token := by
  induction position, input using fits_induction with
  | nil position =>
    refine ⟨[], _, _, rfl, rfl, List.forall_mem_nil _, fun reported member settled => ?_⟩
    rw [cut_nil, List.mem_singleton] at member
    exact settled.1 (congrArg (·.token.kind) member)
  | piece position piece lexeme rest nonempty fits ih =>
    have cutOff := cut_append piece position nonempty fits
    have stop : position + (lexeme ++ rest).length = position + lexeme.length + rest.length := by
      rw [List.length_append, Nat.add_assoc]
    by_cases behind : 2 ≤ rest.length
    · -- Two bytes decide where the piece ends, and the tokens behind it are those of the rest.
      obtain ⟨front, unsettled, others, parts, parts', settled, last⟩ := ih
      have something : rest ≠ [] := by
        rintro rfl
        contradiction
      have proper : rest ≠ [Byte.point] := by
        rintro rfl
        contradiction
      have closed : piece ≠ .malformed .unterminatedString := by
        rintro rfl
        exact something fits.1
      have cutOff' := cut_append_of_alike position nonempty fits closed
        (endsAlike_append something proper more)
      rw [parts, ← List.append_assoc] at cutOff
      rw [parts', ← List.append_assoc, ← List.append_assoc] at cutOff'
      rw [stop]
      refine ⟨_, _, _, cutOff, cutOff', fun reported member => ?_, last⟩
      rcases List.mem_append.mp member with first | later
      · have span := Piece.span_of_mem_reported first
        have member' := cutOff ▸ List.mem_append_left unsettled member
        refine ⟨kind_ne_endOfInput_of_stop_lt member' ?_, ?_⟩
        · rw [span, stop]
          exact Nat.lt_add_of_pos_right (Nat.lt_of_lt_of_le Nat.zero_lt_two behind)
        · rw [span]
          exact Nat.add_le_add_left behind _
      · exact settled reported later
    · -- Every token stops behind the piece, less than two bytes before the end.
      refine ⟨[], _, _, rfl, rfl, List.forall_mem_nil _, fun reported member settled => ?_⟩
      have bound : position + lexeme.length ≤ reported.token.span.stop := by
        rw [cutOff] at member
        rcases List.mem_append.mp member with first | later
        · have span := Piece.span_of_mem_reported first
          exact Nat.le_of_eq (congrArg Span.stop span).symm
        · have after := le_start_of_mem_cut later
          exact Nat.le_trans after.1 after.2
      have inside := settled.2
      omega

/-- The tokens with two bytes behind them are the first tokens of a source, and they are still its
first tokens when more input comes. What is found wrong with them stays the same, too: the first
findings, one about each error among them. -/
theorem settled_tokens_append (source more : List UInt8) :
    let whole (part : List UInt8) := (start part).scan (.blank (part.length + 1))
    let settled := (tokens source).filter (IsSettled source.length ·)
    let errors := settled.filter (·.kind = .error)
    settled <+: tokens source ∧
      settled <+: tokens (source ++ more) ∧
      (whole source).findings.take errors.length =
        (whole (source ++ more)).findings.take errors.length ∧
      ((whole source).findings.take errors.length).map Finding.span = errors.map Token.span := by
  intro whole settled errors
  obtain ⟨front, rest, rest', parts, parts', inside, outside⟩ := exists_settled 0 source more
  rw [Nat.zero_add] at inside outside
  have kept : (front.map ReportedToken.token).filter (IsSettled source.length ·) =
      front.map ReportedToken.token := by
    rw [List.filter_eq_self, List.forall_mem_map]
    exact fun reported member => decide_eq_true (inside reported member)
  have dropped : (rest.map ReportedToken.token).filter (IsSettled source.length ·) = [] := by
    rw [List.filter_eq_nil_iff, List.forall_mem_map]
    exact fun reported member => mt of_decide_eq_true (outside reported member)
  have listed : settled = front.map ReportedToken.token := by
    rw [show settled = (tokens source).filter _ from rfl, tokens_eq_cut, parts, List.map_append,
      List.filter_append, kept, dropped, List.append_nil]
  have found (part : List UInt8) {others : List ReportedToken}
      (same : cut 0 part = front ++ others) :
      (whole part).findings.take errors.length = front.flatMap ReportedToken.findings := by
    have taken := flatMap_findings_take part front.length
    rw [same, List.take_left, ← listed, List.countP_eq_length_filter, ← same] at taken
    rw [findings_scan_blank]
    exact taken.symm
  rw [found source parts, found (source ++ more) parts']
  refine ⟨?_, ?_, rfl, ?_⟩
  · rw [tokens_eq_cut, parts, List.map_append, listed]
    exact List.prefix_append _ _
  · rw [tokens_eq_cut, parts', List.map_append, listed]
    exact List.prefix_append _ _
  · rw [span_flatMap_findings front fun _ member => parts ▸ List.mem_append_left rest member,
      ← listed]

/-- One byte behind a number does not settle it: a digit may follow the point. -/
example : tokens [0x31, Byte.point] =
      [⟨.integer, ⟨0, 1⟩⟩, ⟨.error, ⟨1, 2⟩⟩, .endOfInput 2] ∧
    tokens [0x31, Byte.point, 0x35] = [⟨.float, ⟨0, 3⟩⟩, .endOfInput 3] := by
  cbv

end Scanner

end LispReader
