import LispReader.Proofs.Comparison
import LispReader.Proofs.LookAhead

/-!
# Sources further on

How far the scanner has come only matters for where it says its tokens are, and a newline ends every
piece but a string that nothing closes. So what comes after a newline is cut into the tokens that it
is cut into by itself, all of them displaced by what stands before, and the forms that these are
read as are displaced with them.
-/

namespace LispReader

open Lexeme

/-! ## Displaced spans -/

namespace Span

/-- The span of the same length further on. -/
def displace (distance : Nat) (span : Span) : Span := ⟨span.start + distance, span.stop + distance⟩

/-- Spans are covered before or after they are displaced. -/
theorem displace_cover (distance : Nat) (first second : Span) :
    (first.cover second).displace distance =
      (first.displace distance).cover (second.displace distance) := by
  simp only [displace, cover, Nat.add_min_add_right, Nat.add_max_add_right]

/-- A displaced span covers in a longer source what the span covers in its own. -/
theorem slice_displace {α : Type} (span : Span) (before source : List α) :
    (span.displace before.length).slice (before ++ source) = span.slice source := by
  have same : span.stop + before.length - (span.start + before.length) = span.stop - span.start :=
    Nat.add_sub_add_right ..
  rw [slice, slice, length, length, displace, same, Nat.add_comm, List.drop_append,
    List.drop_of_length_le (Nat.le_add_right _ _), List.nil_append, Nat.add_sub_cancel_left]

/-- A span inside a source covers the same when more comes after the source. -/
theorem slice_append_left {α : Type} {span : Span} {source : List α}
    (inside : span.stop ≤ source.length) (more : List α) :
    span.slice (source ++ more) = span.slice source := by
  have enough : span.length ≤ (source.drop span.start).length := by
    rw [length, List.length_drop]
    omega
  rw [slice, slice, List.drop_append, List.take_append_of_le_length enough]

end Span

/-- A token with its span changed. -/
def Token.mapSpan (change : Span → Span) (token : Token) : Token := ⟨token.kind, change token.span⟩

/-- A finding with its span changed. -/
def Finding.mapSpan (change : Span → Span) (finding : Finding) : Finding :=
  ⟨finding.cause, change finding.span⟩

/-- A diagnostic with its span changed. -/
def Diagnostic.mapSpan (change : Span → Span) (diagnostic : Diagnostic) : Diagnostic :=
  { diagnostic with span := change diagnostic.span }

/-- A token and its findings with their spans changed. -/
def ReportedToken.mapSpan (change : Span → Span) (reported : ReportedToken) : ReportedToken :=
  ⟨reported.token.mapSpan change, reported.findings.map (Finding.mapSpan change)⟩

namespace Finding

/-- A finding whose span is kept is the same. -/
theorem map_mapSpan_id (findings : List Finding) :
    findings.map (mapSpan fun span => span) = findings :=
  List.map_id _

/-- Findings are reported where they are displaced to. -/
theorem map_diagnostic_mapSpan (change : Span → Span) (findings : List Finding) :
    (findings.map (mapSpan change)).map diagnostic =
      (findings.map diagnostic).map (Diagnostic.mapSpan change) := by
  rw [List.map_map, List.map_map]
  rfl

end Finding

/-! ## Displaced tokens -/

namespace Scanner

/-- What is wrong with a piece does not depend on where the piece is. -/
theorem findings_mapSpan (change : Span → Span) (piece : Piece) (span : Span) :
    piece.findings (change span) = (piece.findings span).map (Finding.mapSpan change) := by
  cases piece <;> rfl

/-- The first token of what stands further on is displaced. -/
theorem leading_displace (kind : TokenKind) (position distance : Nat) (input : List UInt8) :
    ReportedToken.leading kind (position + distance) input =
      (ReportedToken.leading kind position input).mapSpan (Span.displace distance) := by
  have span : (⟨position + distance, position + distance + (Piece.leading input).2⟩ : Span) =
      Span.displace distance ⟨position, position + (Piece.leading input).2⟩ := by
    rw [Span.displace, Nat.add_right_comm]
  simp only [ReportedToken.leading, span, findings_mapSpan]
  rfl

/-- What stands further on is cut into the same tokens, which are displaced. -/
theorem cut_displace (position distance : Nat) (input : List UInt8) :
    cut (position + distance) input =
      (cut position input).map (ReportedToken.mapSpan (Span.displace distance)) := by
  induction position, input using cut_induction with
  | nil position =>
    rw [cut_nil, cut_nil]
    rfl
  | trivia position input nonempty trivial ih =>
    rw [cut_of_trivia nonempty trivial, cut_of_trivia nonempty trivial, Nat.add_right_comm, ih]
  | token position input kind nonempty known ih =>
    rw [cut_of_kind nonempty known, cut_of_kind nonempty known, Nat.add_right_comm, ih,
      leading_displace, List.map_cons]

/-- A newline leaves the tokens before it as they are, unless a string is open there, and what comes
after it is cut by itself. -/
theorem cut_append_newline (position : Nat) (input : List UInt8)
    (closed : ∀ reported ∈ cut position input, ∀ finding ∈ reported.findings,
      finding.cause ≠ .unterminatedString) :
    ∃ front, cut position input = front ++ [⟨.endOfInput (position + input.length), []⟩] ∧
      ∀ more, cut position (input ++ Byte.newline :: more) =
        front ++ cut (position + (input.length + 1)) more := by
  induction position, input using fits_induction with
  | nil position => exact ⟨[], cut_nil position, fun more => cut_blank rfl position more⟩
  | piece position piece lexeme rest nonempty fits ih =>
    rw [cut_append piece position nonempty fits] at closed ⊢
    rw [List.forall_mem_append] at closed
    obtain ⟨front, listed, further⟩ := ih closed.2
    have proper : piece ≠ .malformed .unterminatedString := by
      rintro rfl
      exact closed.1 _ (List.mem_singleton_self _) _ (List.mem_singleton_self _) rfl
    refine ⟨piece.reported ⟨position, position + lexeme.length⟩ ++ front, ?_, fun more => ?_⟩
    · rw [listed, List.append_assoc, List.length_append, Nat.add_assoc]
    · have alike := (endsAlike_newline more).append rest
      rw [List.append_nil] at alike
      rw [List.append_assoc, cut_append_of_alike position nonempty fits proper alike, further,
        List.append_assoc, List.length_append, Nat.add_assoc, Nat.add_assoc]

/-- The tokens of two sources with a newline between them are those of the first up to its end, if
no string is open there, and those of the second, which are displaced. What is found wrong with them
is put together in the same way. -/
theorem tokens_append_newline {source : List UInt8}
    (closed : ∀ finding ∈ findings source, finding.cause ≠ .unterminatedString) :
    ∃ front, tokens source = front ++ [.endOfInput source.length] ∧
      ∀ more, tokens (source ++ Byte.newline :: more) =
          front ++ (tokens more).map (Token.mapSpan (Span.displace (source.length + 1))) ∧
        findings (source ++ Byte.newline :: more) =
          findings source ++
            (findings more).map (Finding.mapSpan (Span.displace (source.length + 1))) := by
  obtain ⟨front, listed, further⟩ :=
    cut_append_newline 0 source fun reported member finding found =>
      closed finding (List.mem_flatMap.mpr ⟨reported, member, found⟩)
  refine ⟨front.map ReportedToken.token, ?_, fun more => ⟨?_, ?_⟩⟩
  · rw [tokens_eq_cut, listed, List.map_append, Nat.zero_add]
    rfl
  · rw [tokens_eq_cut, further, cut_displace, List.map_append, tokens_eq_cut, List.map_map,
      List.map_map]
    rfl
  · rw [findings, further, cut_displace, findings, listed, findings, List.flatMap_append,
      List.flatMap_append, List.flatMap_map, List.map_flatMap, List.flatMap_singleton,
      List.append_nil]
    rfl

end Scanner

/-! ## Displaced phrases -/

namespace Phrase

mutual

/-- A phrase with its spans changed. -/
def mapSpan (change : Span → Span) : Phrase → Phrase
  | .leaf kind span => .leaf kind (change span)
  | .list opening items closing => .list (change opening) (mapSpans change items) (change closing)
  | .quote mark quoted => .quote (change mark) (quoted.mapSpan change)

/-- Phrases with their spans changed. -/
def mapSpans (change : Span → Span) : List Phrase → List Phrase
  | [] => []
  | phrase :: rest => phrase.mapSpan change :: mapSpans change rest

end

/-- The spans of phrases are changed one phrase at a time. -/
theorem mapSpans_eq_map (change : Span → Span) (phrases : List Phrase) :
    mapSpans change phrases = phrases.map (mapSpan change) := by
  induction phrases with
  | nil => rfl
  | cons phrase rest ih => rw [mapSpans, ih, List.map_cons]

mutual

/-- A phrase whose spans are kept is the same. -/
theorem mapSpan_id (phrase : Phrase) : phrase.mapSpan (fun span => span) = phrase := by
  match phrase with
  | .leaf _ _ => rfl
  | .list _ items _ => rw [mapSpan, mapSpans_id items]
  | .quote _ quoted => rw [mapSpan, mapSpan_id quoted]

/-- Phrases whose spans are kept are the same. -/
theorem mapSpans_id (phrases : List Phrase) : mapSpans (fun span => span) phrases = phrases := by
  match phrases with
  | [] => rfl
  | phrase :: rest => rw [mapSpans, mapSpan_id phrase, mapSpans_id rest]

end

/-- Phrases after others are read after them. -/
theorem convertAll_append (source : List UInt8) (symbols : SymbolTable)
    (first second : List Phrase) :
    let front := convertAll source symbols first
    let back := convertAll source front.symbols second
    convertAll source symbols (first ++ second) =
      ⟨front.value ++ back.value, back.symbols, front.findings ++ back.findings⟩ := by
  induction first generalizing symbols with
  | nil => rfl
  | cons phrase rest ih =>
    simp only [List.cons_append, convertAll, ih, List.append_assoc]

end Phrase

/-! ## What displaced phrases are read as -/

/-- What a step reads, with its spans changed. -/
def Converted.mapSpan {α : Type} (onValue : α → α) (change : Span → Span)
    (converted : Converted α) : Converted α :=
  ⟨onValue converted.value, converted.symbols, converted.findings.map (Finding.mapSpan change)⟩

/-- A leaf is read from its bytes, wherever they are. -/
theorem LeafKind.convert_mapSpan (kind : LeafKind) (change : Span → Span) (span : Span)
    (lexeme : List UInt8) (symbols : SymbolTable) :
    kind.convert (change span) lexeme symbols =
      (kind.convert span lexeme symbols).mapSpan (Form.mapSpan change) change := by
  cases kind with
  | atom | integer | float =>
    simp only [convert]
    split <;> rfl
  | string | error => rfl

namespace Phrase

mutual

/-- A phrase with its spans changed is read as the same form with its spans changed, if the changed
spans of its tokens cover the same bytes. -/
theorem convert_mapSpan {change : Span → Span} {source source' : List UInt8}
    (covers : ∀ first second, change (first.cover second) = (change first).cover (change second))
    (symbols : SymbolTable) (phrase : Phrase)
    (slices : ∀ token ∈ phrase.tokens,
      (change token.span).slice source' = token.span.slice source) :
    (phrase.mapSpan change).convert source' symbols =
      (phrase.convert source symbols).mapSpan (Form.mapSpan change) change := by
  match phrase with
  | .leaf kind span =>
    have lexeme := slices _ (List.mem_singleton_self _)
    simp only at lexeme
    rw [mapSpan, convert, convert, lexeme, LeafKind.convert_mapSpan]
  | .list opening items closing =>
    have inner := convertAll_mapSpans covers symbols items fun token member =>
      slices token (List.mem_cons_of_mem _ (List.mem_append_left _ member))
    simp only [mapSpan, convert, inner, Converted.mapSpan, Form.mapSpan, covers]
  | .quote mark quoted =>
    have inner := convert_mapSpan covers symbols quoted fun token member =>
      slices token (List.mem_cons_of_mem _ member)
    simp only [mapSpan, convert, inner, Converted.mapSpan, Form.mapSpan, Form.span_mapSpan, covers]

/-- Phrases with their spans changed are read as the same forms with their spans changed, if the
changed spans of their tokens cover the same bytes. -/
theorem convertAll_mapSpans {change : Span → Span} {source source' : List UInt8}
    (covers : ∀ first second, change (first.cover second) = (change first).cover (change second))
    (symbols : SymbolTable) (phrases : List Phrase)
    (slices : ∀ token ∈ tokensAll phrases,
      (change token.span).slice source' = token.span.slice source) :
    convertAll source' symbols (mapSpans change phrases) =
      (convertAll source symbols phrases).mapSpan (Form.mapSpans change) change := by
  match phrases with
  | [] => rfl
  | phrase :: rest =>
    have first := convert_mapSpan covers symbols phrase fun token member =>
      slices token (List.mem_append_left _ member)
    have others := convertAll_mapSpans covers (phrase.convert source symbols).symbols rest
      fun token member => slices token (List.mem_append_right _ member)
    simp only [mapSpans, convertAll, first, Converted.mapSpan, others, Form.mapSpans,
      List.map_append]

end

/-- Phrases inside a source are read as the same forms when more comes after the source. -/
theorem convertAll_append_left {source : List UInt8} (symbols : SymbolTable)
    {phrases : List Phrase} (inside : ∀ token ∈ tokensAll phrases, token.span.stop ≤ source.length)
    (more : List UInt8) :
    convertAll (source ++ more) symbols phrases = convertAll source symbols phrases := by
  have same := @convertAll_mapSpans (fun span => span) source (source ++ more) (fun _ _ => rfl)
    symbols phrases fun token member => Span.slice_append_left (inside token member) more
  rw [mapSpans_id] at same
  rw [same, Converted.mapSpan, Form.mapSpans_id, Finding.map_mapSpan_id]

/-- Displaced phrases are read in a longer source as the forms that they are read as in their own,
which are displaced. -/
theorem convertAll_displace (before source : List UInt8) (symbols : SymbolTable)
    (phrases : List Phrase) :
    convertAll (before ++ source) symbols (phrases.map (mapSpan (Span.displace before.length))) =
      (convertAll source symbols phrases).mapSpan
        (List.map (Form.mapSpan (Span.displace before.length))) (Span.displace before.length) := by
  have displaced := convertAll_mapSpans (Span.displace_cover before.length) symbols phrases
    fun token _ => Span.slice_displace token.span before source
  rw [mapSpans_eq_map] at displaced
  rw [displaced, Converted.mapSpan, Converted.mapSpan, Form.mapSpans_eq_map]

end Phrase

end LispReader
