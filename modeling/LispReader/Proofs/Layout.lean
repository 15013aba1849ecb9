import LispReader.Proofs.LookAhead
import LispReader.Proofs.Reading

/-!
# Layout

A token stays what it is wherever it stands, as long as what comes next continues neither a name nor
a number; only a string that nothing closes needs the source to end. Blanks and comments are such.
So a source may be laid out anew: whatever is put between its tokens, and before the first and after
the last of them, it has the same words, and the same is found wrong with them.
-/

namespace LispReader

open Lexeme

/-! ## Words -/

/-- A token wherever it stands: its kind, its bytes, and what is found wrong with it. -/
structure Word where
  kind : TokenKind
  lexeme : List UInt8
  causes : List Cause
  deriving DecidableEq

namespace Word

/-- The end of a source. -/
def ending : Word := ⟨.endOfInput, [], []⟩

/-- Whether a word is a string that nothing closes. -/
def IsUnterminated (word : Word) : Prop := .unterminatedString ∈ word.causes

/-- Whether a word is a token wherever what comes next continues neither a name nor a number; only a
string that nothing closes needs the source to end. -/
def Stands (word : Word) : Prop :=
  ∃ piece : Piece, piece.kind? = some word.kind ∧
    (∀ span, (piece.findings span).map Finding.cause = word.causes) ∧
    ∀ rest, Byte.Delimits rest → (word.IsUnterminated → rest = []) → piece.Fits word.lexeme rest

/-- Words up to the end of a source, of which only the last may be a string that nothing closes. -/
inductive StandAll : List Word → Prop where
  | ending : StandAll [.ending]
  | cons {word : Word} {words : List Word} (stands : word.Stands)
      (last : word.IsUnterminated → words = [.ending]) (others : StandAll words) :
      StandAll (word :: words)

end Word

/-- The word of a token of `source`. -/
def ReportedToken.word (source : List UInt8) (reported : ReportedToken) : Word :=
  ⟨reported.token.kind, reported.token.lexeme source, reported.findings.map Finding.cause⟩

namespace Scanner

/-- The words of `rest`, which stands behind `before`. -/
def wordsBehind (before rest : List UInt8) : List Word :=
  (cut before.length rest).map (ReportedToken.word (before ++ rest))

/-- The words of a source, its end included. -/
def words (source : List UInt8) : List Word := wordsBehind [] source

/-- The words of a source are the kinds and the bytes of its tokens. -/
theorem map_tokens_words (source : List UInt8) :
    (tokens source).map (fun token => (token.kind, token.lexeme source)) =
      (words source).map fun word => (word.kind, word.lexeme) := by
  rw [tokens_eq_cut, words, wordsBehind, List.map_map, List.map_map]
  exact List.map_congr_left fun _ _ => rfl

/-- What is found in a source is what is found wrong with its words. -/
theorem map_cause_findings (source : List UInt8) :
    (findings source).map Finding.cause = (words source).flatMap Word.causes := by
  rw [findings, words, wordsBehind, List.map_flatMap, List.flatMap_map]
  rfl

/-- Nothing is left at the end. -/
theorem wordsBehind_nil (before : List UInt8) : wordsBehind before [] = [.ending] := by
  rw [wordsBehind, cut_nil, List.map_singleton, ReportedToken.word]
  simp [Token.endOfInput, Token.lexeme, Span.slice, Span.length, Word.ending]

/-- A piece that becomes a token is the next word. -/
theorem wordsBehind_of_fits {piece : Piece} {kind : TokenKind} {lexeme rest : List UInt8}
    (before : List UInt8) (fits : piece.Fits lexeme rest) (known : piece.kind? = some kind)
    {causes : List Cause} (found : ∀ span, (piece.findings span).map Finding.cause = causes) :
    wordsBehind before (lexeme ++ rest) =
      ⟨kind, lexeme, causes⟩ :: wordsBehind (before ++ lexeme) rest := by
  rw [wordsBehind, cut_of_fits piece before.length fits known, List.map_cons, wordsBehind,
    ReportedToken.word, found, Token.lexeme, ← List.append_assoc, Span.slice_append,
    List.length_append]

/-- What is skipped is no word. -/
theorem wordsBehind_of_skipped {skipped rest : List UInt8} (before : List UInt8)
    (skips : cut before.length (skipped ++ rest) = cut (before.length + skipped.length) rest) :
    wordsBehind before (skipped ++ rest) = wordsBehind (before ++ skipped) rest := by
  rw [wordsBehind, skips, wordsBehind, List.append_assoc, List.length_append]

/-- Induction on what stands behind the pieces that have been cut off, trivia and tokens. -/
theorem behind_induction {motive : List UInt8 → List UInt8 → Prop} (before rest : List UInt8)
    (nil : ∀ before, motive before [])
    (trivia : ∀ before lexeme rest, lexeme ≠ [] → Piece.trivia.Fits lexeme rest →
      motive (before ++ lexeme) rest → motive before (lexeme ++ rest))
    (token : ∀ before piece kind lexeme rest, Piece.Fits piece lexeme rest →
      piece.kind? = some kind → motive (before ++ lexeme) rest → motive before (lexeme ++ rest)) :
    motive before rest := by
  -- Positions do not matter, so the pieces may be cut off from any.
  induction (0 : Nat), rest using fits_induction generalizing before with
  | nil position => exact nil before
  | piece position piece lexeme rest nonempty fits ih =>
    cases known : piece.kind? with
    | none =>
      obtain rfl : piece = .trivia := Piece.eq_trivia_of_kind? known
      exact trivia before lexeme rest nonempty fits (ih _)
    | some kind => exact token before piece kind lexeme rest fits known (ih _)

/-- A token behind other bytes that is neither an error nor the end of the input fits where it is. -/
theorem exists_fits_of_mem_cut {before rest : List UInt8} {reported : ReportedToken}
    (member : reported ∈ cut before.length rest) (inner : reported.token.kind ≠ .endOfInput)
    (proper : reported.token.kind ≠ .error) :
    ∃ after, reported.token.kind.Fits (reported.token.lexeme (before ++ rest)) after := by
  induction before, rest using behind_induction with
  | nil before =>
    rw [cut_nil, List.mem_singleton] at member
    subst member
    exact absurd rfl inner
  | trivia before lexeme rest nonempty fits ih =>
    rw [cut_trivia lexeme before.length nonempty fits, ← List.length_append] at member
    rw [← List.append_assoc]
    exact ih member
  | token before piece kind lexeme rest fits found ih =>
    rw [cut_of_fits piece before.length fits found, ← List.length_append] at member
    rw [← List.append_assoc]
    rcases List.mem_cons.mp member with rfl | later
    · refine ⟨rest, ?_⟩
      rw [Token.lexeme, List.length_append, Span.slice_append]
      exact fits.of_kind? found proper
    · exact ih later

/-- The words of a source are tokens wherever they stand. -/
theorem standAll_wordsBehind (before rest : List UInt8) :
    Word.StandAll (wordsBehind before rest) := by
  induction before, rest using behind_induction with
  | nil before =>
    rw [wordsBehind_nil]
    exact .ending
  | trivia before lexeme rest nonempty fits ih =>
    rw [wordsBehind_of_skipped before (cut_trivia lexeme before.length nonempty fits)]
    exact ih
  | token before piece kind lexeme rest fits known ih =>
    have proper : piece ≠ .trivia := by
      rintro rfl
      cases known
    have found (span : Span) : (piece.findings span).map Finding.cause =
        (piece.findings .origin).map Finding.cause := by
      cases piece <;> rfl
    rw [wordsBehind_of_fits before fits known found]
    refine .cons ⟨piece, known, found, fun other delimits ends => ?_⟩ (fun open_end => ?_) ih
    · by_cases closed : piece = .malformed .unterminatedString
      · subst closed
        rw [ends (List.mem_singleton_self _), ← fits.1]
        exact fits
      · exact fits.of_delimits proper closed delimits
    · obtain rfl : piece = .malformed .unterminatedString := by
        cases piece with
        | trivia => exact absurd rfl proper
        | token => cases open_end
        | malformed cause => rw [List.mem_singleton.mp open_end]
      rw [fits.1, wordsBehind_nil]

end Scanner

/-! ## Gaps -/

/-- What may stand between tokens: blanks, and comments with the newline that closes them. -/
inductive Gap : List UInt8 → Prop where
  | nil : Gap []
  | blank {byte : UInt8} {rest : List UInt8} (blank : Byte.isBlank byte = true) (gap : Gap rest) :
    Gap (byte :: rest)
  | comment {run rest : List UInt8} (inside : run.all (· != Byte.newline) = true)
      (gap : Gap rest) : Gap (Byte.semicolon :: (run ++ Byte.newline :: rest))

/-- What may stand behind the last token: a gap, and perhaps a comment that nothing closes. -/
def Trails (tail : List UInt8) : Prop :=
  ∃ gap comment, tail = gap ++ comment ∧ Gap gap ∧
    (comment = [] ∨ ∃ run, comment = Byte.semicolon :: run ∧ run.all (· != Byte.newline) = true)

/-- Neither a name nor a number goes on with a gap. -/
theorem Gap.delimits {gap : List UInt8} (isGap : Gap gap) (nonempty : gap ≠ [])
    (rest : List UInt8) : Byte.Delimits (gap ++ rest) := by
  intro byte first
  cases isGap with
  | nil => exact absurd rfl nonempty
  | blank blank gap =>
    cases first
    refine ⟨Byte.isSymbol_of_isBlank blank, ?_⟩
    rintro rfl
    cases blank
  | comment inside gap =>
    cases first
    decide

/-- Neither a name nor a number goes on with what may stand behind it. -/
theorem Trails.delimits {tail : List UInt8} (trails : Trails tail) : Byte.Delimits tail := by
  obtain ⟨gap, comment, rfl, isGap, form⟩ := trails
  by_cases empty : gap = []
  · subst empty
    intro byte first
    rcases form with rfl | ⟨run, rfl, inside⟩
    · cases first
    · cases first
      decide
  · exact isGap.delimits empty comment

namespace Scanner

/-- A gap is skipped. -/
theorem cut_gap {gap : List UInt8} (isGap : Gap gap) (position : Nat) (rest : List UInt8) :
    cut position (gap ++ rest) = cut (position + gap.length) rest := by
  induction isGap generalizing position with
  | nil => rfl
  | blank blank gap ih =>
    rw [List.cons_append, cut_blank blank, ih, List.length_cons]
    congr 1
    omega
  | @comment run after inside gap ih =>
    have stop : Ends (· != Byte.newline) (Byte.newline :: (after ++ rest)) := by
      intro byte first
      cases first
      rfl
    rw [List.cons_append, List.append_assoc, List.cons_append, cut_comment position inside stop,
      cut_blank rfl, ih]
    congr 1
    simp only [List.length_cons, List.length_append]
    omega

/-- There is no word behind the last one. -/
theorem wordsBehind_of_trails {tail : List UInt8} (before : List UInt8) (trails : Trails tail) :
    wordsBehind before tail = [.ending] := by
  obtain ⟨gap, comment, rfl, isGap, form⟩ := trails
  rw [wordsBehind_of_skipped before (cut_gap isGap _ _)]
  rcases form with rfl | ⟨run, rfl, inside⟩
  · exact wordsBehind_nil _
  · have stop : Ends (· != Byte.newline) [] := by
      intro byte first
      cases first
    have skipped := cut_comment (before ++ gap).length inside stop
    rw [← List.cons_append] at skipped
    rw [← List.append_nil (Byte.semicolon :: run), wordsBehind_of_skipped _ skipped,
      wordsBehind_nil]

end Scanner

/-! ## Layouts -/

/-- Whether a source that starts with the first of some words is made of these words, with a gap
that is not empty between neighbours. Nothing stands behind a string that nothing closes. -/
inductive Spaced : List Word → List UInt8 → Prop where
  | last (word : Word) {tail : List UInt8} (trails : Trails tail)
      (ends : word.IsUnterminated → tail = []) : Spaced [word, .ending] (word.lexeme ++ tail)
  | cons (word : Word) {next : Word} {words : List Word} {gap rest : List UInt8} (isGap : Gap gap)
      (nonempty : gap ≠ []) (others : Spaced (next :: words) rest) :
      Spaced (word :: next :: words) (word.lexeme ++ (gap ++ rest))

/-- Whether a source is made of words with gaps around them. -/
inductive LaidOut : List Word → List UInt8 → Prop where
  | nothing {tail : List UInt8} (trails : Trails tail) : LaidOut [.ending] tail
  | words {words : List Word} {gap rest : List UInt8} (isGap : Gap gap)
      (spaced : Spaced words rest) : LaidOut words (gap ++ rest)

namespace Word

/-- Words with gaps between them are the words of what they make up. -/
theorem Stands.wordsBehind_append {word : Word} (stands : word.Stands) {rest : List UInt8}
    (delimits : Byte.Delimits rest) (ends : word.IsUnterminated → rest = [])
    (before : List UInt8) :
    Scanner.wordsBehind before (word.lexeme ++ rest) =
      word :: Scanner.wordsBehind (before ++ word.lexeme) rest := by
  obtain ⟨piece, known, found, fits⟩ := stands
  exact Scanner.wordsBehind_of_fits before (fits rest delimits ends) known found

end Word

namespace Scanner

/-- Words that are tokens wherever they stand are the words of what they make up with gaps between
them. -/
theorem wordsBehind_of_spaced {words : List Word} {rest : List UInt8} (spaced : Spaced words rest)
    (stand : Word.StandAll words) (before : List UInt8) : wordsBehind before rest = words := by
  induction spaced generalizing before with
  | last word trails ends =>
    cases stand with
    | cons stands last others =>
      rw [stands.wordsBehind_append trails.delimits ends, wordsBehind_of_trails _ trails]
  | cons word isGap nonempty spaced ih =>
    cases stand with
    | cons stands last others =>
      have closed : ¬ word.IsUnterminated := by
        intro open_end
        rw [last open_end] at spaced
        cases spaced
      rw [stands.wordsBehind_append (isGap.delimits nonempty _) (absurd · closed),
        wordsBehind_of_skipped _ (cut_gap isGap _ _), ih others]

/-- A source that is laid out anew has the same words. -/
theorem words_of_laidOut {source other : List UInt8} (laid : LaidOut (words source) other) :
    words other = words source := by
  have stand : Word.StandAll (words source) := standAll_wordsBehind [] source
  generalize words source = listed at laid stand
  cases laid with
  | nothing trails => exact wordsBehind_of_trails [] trails
  | words isGap spaced =>
    rw [words, wordsBehind_of_skipped [] (cut_gap isGap _ _)]
    exact wordsBehind_of_spaced spaced stand _

end Scanner

end LispReader
