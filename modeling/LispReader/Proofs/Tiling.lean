import LispReader.Proofs.Acceptance
import LispReader.Proofs.Layout

/-!
# Tokens and gaps

The tokens of a source stand in order, and what no token covers are gaps between them: gaps and
tokens in turn make up the source. Each of them is the same for itself. A gap that is a source of its
own is only its end, and the bytes of a token give that token again and no other, with the same
found wrong with it, although the scanner looked past them when it cut them off.
-/

namespace LispReader

open Lexeme

namespace Lexeme

/-- What ends before some bytes ends before the first of them alone. -/
theorem Ends.of_append {keep : UInt8 → Bool} {front rest : List UInt8}
    (stop : Ends keep (front ++ rest)) : Ends keep front := by
  intro byte first
  obtain ⟨others, rfl⟩ := List.head?_eq_some_iff.mp first
  exact stop byte rfl

end Lexeme

/-! ## Gaps and lexemes -/

/-- The bytes of a token, and those in front of it that no token covers. -/
structure Tile where
  gap : List UInt8
  lexeme : List UInt8
  deriving DecidableEq

namespace Tile

/-- All bytes of a tile. -/
def bytes (tile : Tile) : List UInt8 := tile.gap ++ tile.lexeme

end Tile

/-- The tiles of tokens that stand in order behind the first `stop` bytes of a source. -/
def Token.tiles (source : List UInt8) (stop : Nat) : List Token → List Tile
  | [] => []
  | token :: tokens =>
    ⟨Span.slice ⟨stop, token.span.start⟩ source, token.lexeme source⟩ ::
      tiles source token.span.stop tokens

namespace Span

/-- The bytes behind others up to a position. -/
theorem slice_behind {α : Type} (before rest : List α) (stop : Nat) :
    slice ⟨before.length, stop⟩ (before ++ rest) = rest.take (stop - before.length) := by
  rw [slice, List.drop_left]
  rfl

/-- A slice is made up of the slices before and behind a position in it. -/
theorem slice_split {α : Type} {start middle stop : Nat} (after : start ≤ middle)
    (before : middle ≤ stop) (source : List α) :
    slice ⟨start, stop⟩ source = slice ⟨start, middle⟩ source ++ slice ⟨middle, stop⟩ source := by
  have lengths : stop - start = (middle - start) + (stop - middle) := by omega
  have position : start + (middle - start) = middle := by omega
  simp only [slice, length]
  rw [lengths, List.take_add, List.drop_drop, position]

end Span

namespace Scanner

/-- Whether nothing in some bytes becomes a token when they are a source of their own. -/
def IsSkipped (gap : List UInt8) : Prop :=
  ∀ position, cut position gap = [⟨.endOfInput (position + gap.length), []⟩]

/-- No byte is skipped. -/
theorem isSkipped_nil : IsSkipped [] := cut_nil

/-- Trivia before what is skipped is skipped with it, whatever came behind them. -/
theorem IsSkipped.append {lexeme gap rest : List UInt8} (isSkipped : IsSkipped gap)
    (fits : Piece.trivia.Fits lexeme (gap ++ rest)) : IsSkipped (lexeme ++ gap) := by
  intro position
  rw [cut_trivia_of_ends position fits Ends.of_append, isSkipped, List.length_append, Nat.add_assoc]

/-- The tiles of `rest`, which stands behind `before`. -/
def tilesBehind (before rest : List UInt8) : List Tile :=
  Token.tiles (before ++ rest) before.length ((cut before.length rest).map ReportedToken.token)

/-- Nothing is left at the end. -/
theorem tilesBehind_nil (before : List UInt8) : tilesBehind before [] = [⟨[], []⟩] := by
  rw [tilesBehind, cut_nil, List.map_singleton]
  simp [Token.tiles, Token.endOfInput, Token.lexeme, Span.slice, Span.length]

/-- A piece that becomes a token is the next tile, which has no gap. -/
theorem tilesBehind_of_fits {piece : Piece} {kind : TokenKind} {lexeme rest : List UInt8}
    (before : List UInt8) (fits : piece.Fits lexeme rest) (known : piece.kind? = some kind) :
    tilesBehind before (lexeme ++ rest) = ⟨[], lexeme⟩ :: tilesBehind (before ++ lexeme) rest := by
  rw [tilesBehind, cut_of_fits piece before.length fits known, List.map_cons, Token.tiles,
    Span.slice_behind, Nat.sub_self, List.take_zero, Token.lexeme, ← List.append_assoc,
    Span.slice_append, tilesBehind, List.length_append]

/-- Trivia joins the gap of the next tile. -/
theorem tilesBehind_of_trivia {lexeme rest : List UInt8} (before : List UInt8)
    (nonempty : lexeme ≠ []) (fits : Piece.trivia.Fits lexeme rest) :
    ∃ gap after text others, rest = gap ++ after ∧
      tilesBehind (before ++ lexeme) rest = ⟨gap, text⟩ :: others ∧
      tilesBehind before (lexeme ++ rest) = ⟨lexeme ++ gap, text⟩ :: others := by
  obtain ⟨first, later, parts⟩ := List.exists_cons_of_ne_nil
    (cut_ne_nil (before ++ lexeme).length rest)
  have bound := (le_start_of_mem_cut (parts ▸ List.mem_cons_self)).1
  rw [List.length_append] at bound
  have joined := Span.slice_split (Nat.le_add_right _ _) bound (before ++ lexeme ++ rest)
  rw [Span.slice_append, ← List.length_append, Span.slice_behind] at joined
  have same := cut_trivia lexeme before.length nonempty fits
  rw [← List.length_append, parts] at same
  refine ⟨rest.take (first.token.span.start - (before ++ lexeme).length), rest.drop _,
    first.token.lexeme (before ++ lexeme ++ rest),
    Token.tiles (before ++ lexeme ++ rest) first.token.span.stop
      (later.map ReportedToken.token),
    (List.take_append_drop _ rest).symm, ?_, ?_⟩
  · rw [tilesBehind, parts, List.map_cons, Token.tiles, Span.slice_behind]
  · rw [tilesBehind, same, List.map_cons, Token.tiles, ← List.append_assoc, joined]

/-- Nothing in the gap of a tile becomes a token. -/
theorem isSkipped_gap (before rest : List UInt8) :
    ∀ tile ∈ tilesBehind before rest, IsSkipped tile.gap := by
  induction before, rest using behind_induction with
  | nil before =>
    rw [tilesBehind_nil, List.forall_mem_singleton]
    exact isSkipped_nil
  | trivia before lexeme rest nonempty fits ih =>
    obtain ⟨gap, after, text, others, rfl, tiles, joined⟩ :=
      tilesBehind_of_trivia before nonempty fits
    rw [tiles, List.forall_mem_cons] at ih
    rw [joined, List.forall_mem_cons]
    exact ⟨ih.1.append fits, ih.2⟩
  | token before piece kind lexeme rest fits known ih =>
    rw [tilesBehind_of_fits before fits known, List.forall_mem_cons]
    exact ⟨isSkipped_nil, ih⟩

/-- What tiles cover is made up of them. -/
theorem flatMap_bytes_tilesBehind (before rest : List UInt8) :
    (tilesBehind before rest).flatMap Tile.bytes = rest := by
  induction before, rest using behind_induction with
  | nil before =>
    rw [tilesBehind_nil]
    rfl
  | trivia before lexeme rest nonempty fits ih =>
    obtain ⟨gap, after, text, others, -, tiles, joined⟩ :=
      tilesBehind_of_trivia before nonempty fits
    rw [tiles, List.flatMap_cons] at ih
    rw [joined, List.flatMap_cons, ← ih]
    simp only [Tile.bytes, List.append_assoc]
  | token before piece kind lexeme rest fits known ih =>
    rw [tilesBehind_of_fits before fits known, List.flatMap_cons, ih]
    rfl

/-- The tiles of a source. -/
theorem tiles_tokens (source : List UInt8) :
    Token.tiles source 0 (tokens source) = tilesBehind [] source := by
  rw [tokens_eq_cut]
  rfl

end Scanner

/-! ## Tokens alone -/

/-- Every word but the end of a source is a token wherever it stands. -/
theorem Word.StandAll.stands {words : List Word} {word : Word} (stand : StandAll words)
    (member : word ∈ words) (proper : word.kind ≠ .endOfInput) : word.Stands := by
  induction stand with
  | ending =>
    rw [List.mem_singleton.mp member] at proper
    exact absurd rfl proper
  | cons stands last others ih =>
    rcases List.mem_cons.mp member with rfl | later
    · exact stands
    · exact ih later

/-- What is found wrong with a piece is all about the bytes it covers. -/
theorem Piece.findings_eq_map (piece : Piece) (span : Span) :
    piece.findings span = ((piece.findings span).map Finding.cause).map (⟨·, span⟩) := by
  cases piece <;> rfl

namespace Scanner

/-- The bytes of a token are a source of that token and its end, where the same is found wrong with
them. -/
theorem cut_lexeme {source : List UInt8} {reported : ReportedToken}
    (member : reported ∈ cut 0 source) (proper : reported.token.kind ≠ .endOfInput) :
    let lexeme := reported.token.lexeme source
    let all : Span := ⟨0, lexeme.length⟩
    cut 0 lexeme =
      [⟨⟨reported.token.kind, all⟩, (reported.findings.map Finding.cause).map (⟨·, all⟩)⟩,
        ⟨.endOfInput lexeme.length, []⟩] := by
  intro lexeme all
  have word : reported.word source ∈ words source := List.mem_map_of_mem member
  obtain ⟨piece, known, found, fits⟩ := (standAll_wordsBehind [] source).stands word proper
  have delimits : Byte.Delimits [] := by
    intro byte first
    cases first
  have alone := cut_of_fits piece 0 (fits [] delimits fun _ => rfl) known
  rw [List.append_nil, cut_nil, Nat.zero_add, Piece.findings_eq_map, found] at alone
  exact alone

/-- An error token has one finding, any other token none, and all findings are about the bytes of
their tokens. -/
theorem length_findings_of_mem_cut {source : List UInt8} {reported : ReportedToken}
    (member : reported ∈ cut 0 source) :
    reported.findings.length = (if reported.token.kind = .error then 1 else 0) ∧
      ∀ finding ∈ reported.findings, finding.span = reported.token.span := by
  have spans := findings_cut member
  have counted := congrArg List.length spans
  rw [List.length_map, List.length_map] at counted
  constructor
  · rw [counted]
    by_cases error : reported.token.kind = .error <;> simp [error]
  · intro finding found
    have listed := List.mem_map_of_mem (f := Finding.span) found
    rw [spans] at listed
    obtain ⟨token, kept, same⟩ := List.mem_map.mp listed
    rw [← same, List.mem_singleton.mp (List.mem_filter.mp kept).1]

/-- The tokens of a source before its end are nonempty and stand in order inside it. They and the
gaps between them make up the source, and each is the same for itself: a gap that is scanned as a
source of its own gives nothing but the end, and the bytes of a token give that token, which covers
them all, and the end; for an error the same cause is found again. -/
theorem tokens_tile (source : List UInt8) :
    let whole (part : List UInt8) := (start part).scan (.blank (part.length + 1))
    let tiles := Token.tiles source 0 (tokens source)
    ∃ front, tokens source = front ++ [.endOfInput source.length] ∧
      (∀ token ∈ front, token.kind ≠ .endOfInput ∧ token.span.start < token.span.stop ∧
        token.span.stop ≤ source.length) ∧
      (front.Pairwise fun earlier later => earlier.span.stop ≤ later.span.start) ∧
      tiles.flatMap Tile.bytes = source ∧
      (∀ tile ∈ tiles, tokens tile.gap = [.endOfInput tile.gap.length] ∧
        (whole tile.gap).findings = []) ∧
      ∀ token ∈ front,
        let lexeme := token.lexeme source
        let all : Span := ⟨0, lexeme.length⟩
        tokens lexeme = [⟨token.kind, all⟩, .endOfInput lexeme.length] ∧
          ∃ causes : List Cause, causes.length = (if token.kind = .error then 1 else 0) ∧
            (whole lexeme).findings = causes.map (⟨·, all⟩) ∧
            ∀ cause ∈ causes, ⟨cause, token.span⟩ ∈ (whole source).findings := by
  intro whole tiles
  obtain ⟨front, listed, proper⟩ := tokens_eq_append_endOfInput source
  have ordered := ordered_cut 0 source
  rw [← tokens_eq_cut, listed] at ordered
  have reportedOf {token : Token} (member : token ∈ front) :
      ∃ reported ∈ cut 0 source, reported.token = token := by
    rw [← List.mem_map, ← tokens_eq_cut, listed]
    exact List.mem_append_left _ member
  refine ⟨front, listed, ?_, ordered.of_append.1.2, ?_, ?_, ?_⟩
  · intro token member
    obtain ⟨reported, found, rfl⟩ := reportedOf member
    have visible := length_pos_of_mem_cut found (proper _ member)
    have inside := (List.pairwise_append.mp ordered.2).2.2 _ member _ (List.mem_singleton_self _)
    exact ⟨proper _ member, Nat.lt_of_sub_pos visible, inside⟩
  · rw [show tiles = _ from tiles_tokens source]
    exact flatMap_bytes_tilesBehind [] source
  · intro tile member
    rw [show tiles = _ from tiles_tokens source] at member
    have nothing := isSkipped_gap [] source tile member 0
    rw [Nat.zero_add] at nothing
    rw [tokens_eq_cut, findings_scan_blank, nothing]
    exact ⟨rfl, rfl⟩
  · intro token member lexeme all
    obtain ⟨reported, found, rfl⟩ := reportedOf member
    obtain ⟨counted, about⟩ := length_findings_of_mem_cut found
    have alone : cut 0 lexeme = _ := cut_lexeme found (proper _ member)
    rw [tokens_eq_cut, findings_scan_blank, findings_scan_blank, alone]
    refine ⟨rfl, reported.findings.map Finding.cause, ?_, List.append_nil _, ?_⟩
    · rw [List.length_map, counted]
    · intro cause named
      obtain ⟨finding, made, rfl⟩ := List.mem_map.mp named
      rw [← about finding made]
      exact List.mem_flatMap.mpr ⟨reported, found, made⟩

end Scanner

end LispReader
