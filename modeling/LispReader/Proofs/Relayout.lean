import LispReader.Proofs.Comparison
import LispReader.Proofs.Layout

/-!
# Reading a source laid out anew

Two sources that are made of the same words, however these are spaced, are read alike: the tokens
have the same kinds and bytes, the same is found wrong with them, and in arenas of the same size of
which as much is spoken for both reads give the same tree or stop at the same fault, places aside,
with as much spoken for and the same names known afterwards.
-/

namespace LispReader

/-- A fault without the place where it was found. -/
def ReadError.withoutSpan (problem : ReadError) : ReadError := problem.mapSpan fun _ => .origin

/-- The result of a reading without the places in the source. -/
def Reading.placeless (reading : Reading) : Except ReadError Tree :=
  match reading.result with
  | .ok tree => .ok tree.withoutSpans
  | .error problem => .error problem.withoutSpan

/-- Workspaces whose arenas have the same size and as much spoken for, and in which the same names
are known. -/
structure Workspace.Alike (workspace workspace' : Workspace) : Prop where
  capacity : workspace.arena.capacity = workspace'.arena.capacity
  offset : workspace.arena.offset = workspace'.arena.offset
  symbols : workspace.symbols = workspace'.symbols

/-! ## Arenas elsewhere -/

namespace Arena

/-- Arenas of the same size of which as much is spoken for meet the same requests for words and
bytes, and refuse the others for the same reason. -/
theorem allocate_alike {first second : Arena} (capacity : first.capacity = second.capacity)
    (offset : first.offset = second.offset) (size : UInt64) {align : UInt64}
    (word : align = 1 ∨ align = Build.wordAlignment) :
    (∃ address address' after after', first.allocate size align = .ok (address, after) ∧
      second.allocate size align = .ok (address', after') ∧ after.capacity = after'.capacity ∧
      after.offset = after'.offset) ∨
    ∃ problem, first.allocate size align = .error problem ∧
      second.allocate size align = .error problem := by
  have proper : isPowerOfTwo align = true := by rcases word with rfl | rfl <;> decide
  have shared : align.toNat ∣ 16 := by rcases word with rfl | rfl <;> decide
  cases granted : first.allocate size align with
  | ok pair =>
    obtain ⟨address, after⟩ := pair
    obtain ⟨address', after', granted', offsets⟩ :=
      allocate_of_offset offset (UInt64.le_of_eq capacity) shared granted
    refine .inl ⟨address, address', after, after', rfl, granted', ?_, offsets⟩
    rw [(allocate_block granted).2, (allocate_block granted').2, capacity]
  | error problem =>
    cases granted' : second.allocate size align with
    | ok pair =>
      -- What the second arena grants the first would grant too.
      obtain ⟨address, after, again, -⟩ :=
        allocate_of_offset offset.symm (UInt64.le_of_eq capacity.symm) shared granted'
      cases granted.symm.trans again
    | error problem' =>
      refine .inr ⟨problem, rfl, ?_⟩
      rw [eq_exhausted_of_allocate proper granted, eq_exhausted_of_allocate proper granted',
        remaining, remaining, capacity, offset]

end Arena

namespace Comparison

/-- Places in the source are not looked at, and nothing is excused. -/
def placeless : Comparison where
  left _ := .origin
  right _ := .origin
  workspaces := Workspace.Alike
  excuses _ := False

/-- Reads can be compared without looking at places. -/
theorem lawful_placeless : placeless.Lawful where
  cover _ _ := rfl
  reserve size align word := by
    intro workspace workspace' ⟨capacity, offset, symbols⟩
    rw [Build.reserve, Build.reserve]
    rcases Arena.allocate_alike capacity offset size word with
      ⟨address, address', after, after', granted, granted', capacities, offsets⟩ |
      ⟨problem, refused, refused'⟩
    · rw [granted, granted']
      exact .ok trivial ⟨capacities, offsets, symbols⟩
    · rw [refused, refused']
      exact .error rfl ⟨capacity, offset, symbols⟩
  intern name := by
    intro workspace workspace' ⟨capacity, offset, symbols⟩
    rw [Build.intern, Build.intern, symbols]
    exact .ok rfl ⟨capacity, offset, rfl⟩
  report cause _ _ _ := fun _ _ ⟨capacity, offset, symbols⟩ =>
    .ok trivial ⟨capacity, offset, symbols⟩

end Comparison

/-! ## Reads -/

namespace Scanner

/-- The findings of a source are those of a call that has room for a token from every byte and for
the end of the input. -/
theorem findings_eq_scan (source : List UInt8) :
    findings source = ((start source).scan (.blank (source.length + 1))).findings :=
  (findings_scan_blank source).symm

/-- Tokens of the same words show the same, places aside. -/
theorem map_view_of_words {source other : List UInt8} (same : words other = words source) :
    (tokens source).map (Token.view (fun _ => .origin) source) =
      (tokens other).map (Token.view (fun _ => .origin) other) := by
  have shown (text : List UInt8) : (tokens text).map (Token.view (fun _ => .origin) text) =
      (words text).map fun word => (word.kind, .origin, word.lexeme) := by
    rw [tokens_eq_cut, words, wordsBehind, List.map_map, List.map_map]
    exact List.map_congr_left fun _ _ => rfl
  rw [shown, shown, same]

end Scanner

namespace Session

/-- A source that is laid out anew has tokens of the same kinds with the same bytes, and the same
messages are reported about them. Read with the same settings and names in arenas of the same size
of which as much is spoken for, both sources give the same tree but for the places of its forms, or
fail with the same fault but for its place; and afterwards as much is spoken for, and the same names
are known. -/
theorem read_of_laidOut (settings : Settings) (symbols : SymbolTable)
    (earlier earlier' : List Diagnostic) (arena arena' : Arena) (source other : List UInt8)
    (laid : LaidOut (Scanner.words source) other) :
    ((Scanner.tokens other).map (fun token => (token.kind, token.lexeme other)) =
        (Scanner.tokens source).map (fun token => (token.kind, token.lexeme source)) ∧
      ((Scanner.start other).scan (.blank (other.length + 1))).findings.map
          (fun finding => finding.diagnostic.message) =
        ((Scanner.start source).scan (.blank (source.length + 1))).findings.map
          fun finding => finding.diagnostic.message) ∧
    (source.length < Scanner.sourceLimit → other.length < Scanner.sourceLimit →
      arena'.capacity = arena.capacity → arena'.offset = arena.offset →
      let reading := read ⟨settings, symbols, earlier⟩ arena source
      let reading' := read ⟨settings, symbols, earlier'⟩ arena' other
      reading'.placeless = reading.placeless ∧
        reading'.arena.offset = reading.arena.offset ∧
        reading'.session.symbols = reading.session.symbols) := by
  have same : Scanner.words other = Scanner.words source := Scanner.words_of_laidOut laid
  refine ⟨⟨?_, ?_⟩, fun short short' capacity offset => ?_⟩
  · rw [Scanner.map_tokens_words, Scanner.map_tokens_words, same]
  · have messages (text : List UInt8) :
        (Scanner.findings text).map (fun finding => finding.diagnostic.message) =
          ((Scanner.words text).flatMap Word.causes).map Cause.message := by
      rw [← Scanner.map_cause_findings, List.map_map]
      rfl
    rw [← Scanner.findings_eq_scan, ← Scanner.findings_eq_scan, messages, messages, same]
  · intro reading reading'
    have follows : reading.Follows _ source _ := read_follows _ arena short
    have follows' : reading'.Follows _ other _ := read_follows _ arena' short'
    have nests : Comparison.placeless.NestsAlike .empty .empty := ⟨.nil, rfl⟩
    have ended := Comparison.agree_run Comparison.lawful_placeless
      (.inl (Eq.refl settings.depthLimit)) rfl (Scanner.map_view_of_words same) nests
      ⟨arena, symbols, []⟩ ⟨arena', symbols, []⟩ ⟨capacity.symm, offset.symm, rfl⟩
    rw [Reading.placeless, Reading.placeless, follows.result, follows'.result, follows.arena,
      follows'.arena, follows.symbols, follows'.symbols]
    generalize Nest.run _ _ _ _ _ = outcome at ended ⊢
    generalize Nest.run _ _ _ _ _ = outcome' at ended ⊢
    cases ended with
    | ok alike after =>
      refine ⟨?_, after.offset.symm, after.symbols.symm⟩
      simp only [Build.outcome, Tree.withoutSpans, ← Form.mapSpans_origin, Form.mapSpans_eq_map]
      exact congrArg (fun forms => Except.ok (Tree.mk forms)) (show _ = _ from alike).symm
    | error problems stopped =>
      refine ⟨?_, stopped.offset.symm, stopped.symbols.symm⟩
      exact congrArg Except.error (show _ = _ from problems).symm
    | excused excuse => exact excuse.elim

/-- A float, and a point with a digit that touch: pulled apart, with comments between and behind
them, they are the same words. -/
theorem read_of_laidOut_touching :
    let number : List UInt8 := [0x31, 0x32, Byte.point, 0x33]
    let run : List UInt8 := [Byte.point, 0x34]
    let source : List UInt8 := number ++ run
    let other : List UInt8 := Byte.space :: (number ++ (Byte.newline :: Byte.semicolon :: 0x78 ::
      Byte.newline :: (run ++ [Byte.semicolon])))
    let arena : Arena := ⟨Arena.blockAddress, 256, 0, by decide, by decide, by decide⟩
    LaidOut (Scanner.words source) other ∧
      (Scanner.tokens other).map (fun token => (token.kind, token.lexeme other)) =
        [(.float, number), (.error, run), (.endOfInput, [])] ∧
      (read (.create .default) arena other).placeless =
        (read (.create .default) arena source).placeless := by
  intro number run source other arena
  have float : Piece.Fits (.token .float) number run := by
    refine ⟨⟨[], [0x31, 0x32], [0x33], rfl, .inl rfl, rfl, rfl⟩, fun byte first => ?_⟩
    cases first
    rfl
  have glued : Piece.Fits (.malformed .malformedNumber) run [] :=
    .inr ⟨[0x34], rfl, List.cons_ne_nil _ _, rfl, fun byte first => by cases first⟩
  have words : Scanner.words source =
      [⟨.float, number, []⟩, ⟨.error, run, [.malformedNumber]⟩, .ending] := by
    have first : Scanner.wordsBehind [] (number ++ run) =
        ⟨.float, number, []⟩ :: Scanner.wordsBehind number run :=
      Scanner.wordsBehind_of_fits [] float rfl fun _ => rfl
    have second : Scanner.wordsBehind number (run ++ []) =
        ⟨.error, run, [.malformedNumber]⟩ :: Scanner.wordsBehind (number ++ run) [] :=
      Scanner.wordsBehind_of_fits number glued rfl fun _ => rfl
    rw [List.append_nil, Scanner.wordsBehind_nil] at second
    exact first.trans (congrArg (List.cons _) second)
  have laid : LaidOut (Scanner.words source) other := by
    rw [words]
    have comment : Gap (Byte.semicolon :: ([0x78] ++ Byte.newline :: [])) := .comment rfl .nil
    have between : Gap (Byte.newline :: Byte.semicolon :: ([0x78] ++ Byte.newline :: [])) :=
      .blank rfl comment
    have behind : Trails [Byte.semicolon] := ⟨[], _, rfl, .nil, .inr ⟨[], rfl, rfl⟩⟩
    have closed : ¬ Word.IsUnterminated ⟨.error, run, [.malformedNumber]⟩ := by
      intro wrong
      cases List.mem_singleton.mp wrong
    have front : Gap [Byte.space] := .blank rfl .nil
    have spaced := Spaced.cons ⟨.float, number, []⟩ between (List.cons_ne_nil _ _)
      (.last ⟨.error, run, [.malformedNumber]⟩ behind (absurd · closed))
    exact LaidOut.words front spaced
  obtain ⟨⟨tokens, -⟩, reads⟩ :=
    read_of_laidOut .default .empty [] [] arena arena source other laid
  rw [Scanner.map_tokens_words source, words] at tokens
  exact ⟨laid, tokens, (reads (by decide) (by decide) rfl rfl).1⟩

end Session

end LispReader
