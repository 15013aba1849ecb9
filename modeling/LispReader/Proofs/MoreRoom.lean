import LispReader.Proofs.Comparison
import LispReader.Proofs.StructuralErrors

/-!
# Reading with more room

A read has two budgets: the bytes of its arena and the depth that it follows. Both only decide
whether the next step may be taken, never what the step does. So a read that ends for any reason
but the want of one of them ends in the same way with more of both, and up to there it has done the
same, including what it has found and in which order.
-/

namespace LispReader

/-- Whether a read was stopped because one of its budgets was used up. -/
def ReadError.isShortage : ReadError → Bool
  | .tooDeep _ _ | .arena (.exhausted _ _ _) => true
  | .unbalanced _ | .unclosed _ | .unexpectedEnd _ | .empty | .sourceTooLarge _ | .arena _ => false

/-! ## Two drives of one feed -/

namespace Comparison

/-- Driving one feed through nests that are alike ends alike, if what is found is reported alike. -/
theorem agree_drive {c : Comparison} (lawful : c.Lawful)
    (spans : ∀ span, c.left span = c.right span)
    (reports : ∀ findings, c.Agree (fun _ _ => True) (Build.report findings)
      (Build.report findings))
    {limit limit' : Nat} (limits : c.LimitsAlike limit limit') (source : List UInt8)
    {feed : TokenFeed} (slots : 0 < feed.window.capacity) {nest nest' : Nest}
    (alike : c.NestsAlike nest nest') :
    c.Agree c.FormsAlike (feed.drive limit source nest) (feed.drive limit' source nest') := by
  induction left : feed.tokens generalizing feed nest nest' with
  | nil =>
    intro workspace workspace' corresponds
    rw [TokenFeed.drive_of_nil slots left, TokenFeed.drive_of_nil slots left, List.append_nil,
      List.append_nil]
    exact agree_finish lawful limits alike (spans _) _ _ corresponds
  | cons token rest ih =>
    obtain ⟨-, others, -, capacity⟩ := TokenFeed.next_of_tokens slots left
    rw [TokenFeed.drive_of_cons slots left, TokenFeed.drive_of_cons slots left]
    refine .bind (reports _) fun _ _ _ => ?_
    split
    · exact agree_finish lawful limits alike (spans _)
    · have same : token.view c.left source = token.view c.right source := by
        rw [Token.view, Token.view, spans]
      exact .bind (agree_take lawful limits alike same) fun _ _ after =>
        ih (capacity ▸ slots) after others

end Comparison

/-! ## More room -/

/-- Workspaces that are the same but that the second has an arena with at least as many bytes. -/
structure Workspace.Within (workspace workspace' : Workspace) : Prop where
  capacity : workspace.arena.capacity ≤ workspace'.arena.capacity
  offset : workspace.arena.offset = workspace'.arena.offset
  symbols : workspace.symbols = workspace'.symbols
  findings : workspace.findings = workspace'.findings

namespace Comparison

/-- The second read has at least as much room, and the first may run short of it. -/
def roomier : Comparison where
  left span := span
  right span := span
  workspaces := Workspace.Within
  excuses problem := problem.isShortage = true

/-- Findings are reported alike whatever the room. -/
theorem agree_report (findings : List Finding) :
    roomier.Agree (fun _ _ => True) (Build.report findings) (Build.report findings) :=
  fun _ _ ⟨capacity, offset, symbols, earlier⟩ =>
    .ok trivial ⟨capacity, offset, symbols, congrArg (· ++ findings) earlier⟩

/-- A step that the smaller arena can pay for is paid for alike by the larger one, and any other is
a shortage. -/
theorem lawful_roomier : roomier.Lawful where
  cover {first first' second second'} same same' := by
    obtain rfl : first = first' := same
    obtain rfl : second = second' := same'
    rfl
  reserve size align word := by
    intro workspace workspace' ⟨capacity, offset, symbols, findings⟩
    have proper : Arena.isPowerOfTwo align = true := by rcases word with rfl | rfl <;> decide
    have shared : align.toNat ∣ 16 := by rcases word with rfl | rfl <;> decide
    rw [Build.reserve, Build.reserve]
    cases granted : workspace.arena.allocate size align with
    | ok pair =>
      obtain ⟨address, after⟩ := pair
      obtain ⟨address', after', granted', offsets⟩ :=
        Arena.allocate_of_offset offset capacity shared granted
      rw [granted']
      refine .ok trivial ⟨?_, offsets, symbols, findings⟩
      rw [(Arena.allocate_block granted).2, (Arena.allocate_block granted').2]
      exact capacity
    | error problem =>
      rw [Arena.eq_exhausted_of_allocate proper granted]
      exact .excused rfl _
  intern name := by
    intro workspace workspace' ⟨capacity, offset, symbols, findings⟩
    rw [Build.intern, Build.intern, symbols]
    exact .ok rfl ⟨capacity, offset, rfl, findings⟩
  report cause span span' same := by
    obtain rfl : span = span' := same
    exact agree_report _

/-- A higher limit on the depth is more room. -/
theorem limitsAlike_roomier {limit limit' : Nat} (deeper : limit ≤ limit') :
    roomier.LimitsAlike limit limit' :=
  .inr ⟨deeper, fun _ => rfl⟩

end Comparison

/-! ## Reads -/

namespace Settings

/-- A higher limit in the settings does not lower the limit that is followed. -/
theorem depthLimit_mono {settings settings' : Settings}
    (deeper : settings.maxDepth ≤ settings'.maxDepth) :
    settings.depthLimit ≤ settings'.depthLimit := by
  rw [UInt64.le_iff_toNat_le] at deeper
  rw [depthLimit, depthLimit]
  omega

end Settings

namespace Session

/-- A read that ends otherwise than by a shortage of arena or of depth ends in the same way with a
limit that is at least as high, in an arena of at least as many bytes of which as much is spoken for
before: with the same tree or the same fault, with as much spoken for, the same names known and the
same diagnostics reported in the same order. -/
theorem read_of_more_room (settings settings' : Settings) (symbols : SymbolTable)
    (earlier earlier' : List Diagnostic) (arena arena' : Arena) (source : List UInt8)
    (batch : settings'.tokenBatch = settings.tokenBatch)
    (deeper : settings.maxDepth ≤ settings'.maxDepth)
    (larger : arena.capacity ≤ arena'.capacity) (offset : arena'.offset = arena.offset)
    (unhampered : ∀ problem, (read ⟨settings, symbols, earlier⟩ arena source).result =
      .error problem → problem.isShortage = false) :
    let reading := read ⟨settings, symbols, earlier⟩ arena source
    let reading' := read ⟨settings', symbols, earlier'⟩ arena' source
    reading'.result = reading.result ∧ reading'.arena.offset = reading.arena.offset ∧
      reading'.session.symbols = reading.session.symbols ∧
      ∃ reported, reading.session.diagnostics = earlier ++ reported ∧
        reading'.session.diagnostics = earlier' ++ reported := by
  intro reading reading'
  by_cases long : Scanner.sourceLimit ≤ source.length
  · have refused : reading = _ := read_of_long _ arena long
    have refused' : reading' = _ := read_of_long _ arena' long
    rw [refused, refused']
    exact ⟨rfl, offset, rfl, [], (List.append_nil _).symm, (List.append_nil _).symm⟩
  have windows : batchWindow ⟨settings', symbols, earlier'⟩ =
      batchWindow ⟨settings, symbols, earlier⟩ := by
    rw [batchWindow, batchWindow, batch]
  have slots := capacity_start_pos ⟨settings, symbols, earlier⟩ source
  have nests : Comparison.roomier.NestsAlike .empty .empty := ⟨.nil, rfl⟩
  have limits := Comparison.limitsAlike_roomier (Settings.depthLimit_mono deeper)
  have ended := Comparison.agree_drive Comparison.lawful_roomier (fun _ => rfl)
    Comparison.agree_report limits source slots nests ⟨arena, symbols, []⟩ ⟨arena', symbols, []⟩
    ⟨larger, offset.symm, rfl, rfl⟩
  rw [read, if_neg long] at unhampered
  simp only [reading, reading', read, if_neg long, windows]
  simp only at unhampered
  generalize TokenFeed.drive _ _ _ _ _ = outcome at ended unhampered ⊢
  generalize TokenFeed.drive _ _ _ _ _ = outcome' at ended ⊢
  cases ended with
  | @ok forms forms' _ _ alike after =>
    have same : forms = forms' := by
      rw [← Form.map_mapSpan_id forms, ← Form.map_mapSpan_id forms']
      exact alike
    subst same
    refine ⟨rfl, after.offset.symm, after.symbols.symm, _, rfl, ?_⟩
    rw [after.findings]
    rfl
  | @error problem problem' _ _ alike stopped =>
    have same : problem = problem' := by
      rw [← problem.mapSpan_id, ← problem'.mapSpan_id]
      exact alike
    subst same
    refine ⟨rfl, stopped.offset.symm, stopped.symbols.symm, _, rfl, ?_⟩
    rw [stopped.findings]
    rfl
  | excused shortage =>
    cases shortage.symm.trans (unhampered _ rfl)

/-- A list and a right parenthesis too many: the list was paid for, and more room than that does not
change the fault. -/
theorem read_of_more_room_unbalanced :
    let source : List UInt8 := [Byte.leftParen, Byte.rightParen, Byte.rightParen]
    let arena : Arena := ⟨Arena.blockAddress, 256, 0, by decide, by decide, by decide⟩
    let arena' : Arena := ⟨Arena.blockAddress, 4096, 0, by decide, by decide, by decide⟩
    let session : Session := .create ⟨256, 2, 0⟩
    let session' : Session := .create ⟨4096, 2, 9⟩
    (session.read arena source).result = .error (.unbalanced ⟨2, 3⟩) ∧
      (session'.read arena' source).result = .error (.unbalanced ⟨2, 3⟩) ∧
      (session'.read arena' source).arena.offset = (session.read arena source).arena.offset := by
  intro source arena arena' session session'
  have tokens : Scanner.tokens source =
      [⟨.leftParen, ⟨0, 1⟩⟩, ⟨.rightParen, ⟨1, 2⟩⟩, ⟨.rightParen, ⟨2, 3⟩⟩, .endOfInput 3] := by
    rw [Scanner.tokens_eq_cut, Scanner.cut_leftParen, Scanner.cut_rightParen,
      Scanner.cut_rightParen, Scanner.cut_nil]
    rfl
  have room : 64 * (source.length + 1) ≤ arena.remaining.toNat := by decide
  have fails : (session.read arena source).result = .error (.unbalanced ⟨2, 3⟩) := by
    rw [result_eq_error (by decide) (.inl room), tokens]
    rfl
  obtain ⟨result, offset, -⟩ := read_of_more_room ⟨256, 2, 0⟩ ⟨4096, 2, 9⟩ .empty [] [] arena arena'
    source rfl (by decide) (by decide) rfl fun problem failed => by
      cases fails.symm.trans failed
      rfl
  exact ⟨fails, result.trans fails, offset⟩

end Session

end LispReader
