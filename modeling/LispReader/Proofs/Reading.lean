import LispReader.Proofs.Conversion
import LispReader.Proofs.FeedTokens

/-!
# Reading whole sources

A source derives phrases if its tokens up to the end of the input are those of one phrase or more,
none of them nested too deeply. What such a source is read as is what its phrases are read as,
unless the arena stops the read, and sixty-four bytes of arena for every byte of source are always
enough. Any other source is refused. Accepted or refused, a read does what recursive descent does on
the tokens of its source.
-/

namespace LispReader

namespace Phrase

/-- A source whose tokens are those of phrases nested no deeper than `limit`. -/
structure Derives (limit : Nat) (source : List UInt8) (phrases : List Phrase) : Prop where
  nonempty : phrases ≠ []
  tokens : tokensAll phrases ++ [.endOfInput source.length] = Scanner.tokens source
  within : WithinAll limit 0 phrases

end Phrase

/-! ## Room for phrases -/

namespace Token

/-- The number of bytes that tokens cover. -/
def covered : List Token → Nat
  | [] => 0
  | token :: rest => token.span.length + covered rest

/-- The bytes of tokens after others are added. -/
theorem covered_append (first second : List Token) :
    covered (first ++ second) = covered first + covered second := by
  induction first with
  | nil => exact (Nat.zero_add _).symm
  | cons token rest ih => rw [List.cons_append, covered, ih, covered, Nat.add_assoc]

end Token

namespace Scanner

/-- Tokens cover no more bytes than there are. -/
theorem covered_cut_le (position : Nat) (input : List UInt8) :
    Token.covered ((cut position input).map ReportedToken.token) ≤ input.length := by
  induction position, input using cut_induction with
  | nil position =>
    simp [Token.covered, Token.endOfInput, Span.length]
  | trivia position input nonempty trivial ih =>
    have shorter := Piece.drop_leading_length_lt nonempty
    rw [cut_of_trivia nonempty trivial]
    omega
  | token position input kind nonempty known ih =>
    have inside := Piece.length_leading_le input
    rw [List.length_drop] at ih
    rw [cut_of_kind nonempty known, List.map_cons, Token.covered]
    simp only [ReportedToken.leading, Span.length]
    omega

/-- Every token but the end of the input covers a byte. -/
theorem length_pos_of_mem_cut {position : Nat} {input : List UInt8} {reported : ReportedToken}
    (member : reported ∈ cut position input) (proper : reported.token.kind ≠ .endOfInput) :
    0 < reported.token.span.length := by
  cases arises_of_mem_cut member with
  | ending => exact absurd rfl proper
  | token skipped length kind found =>
    have positive := Piece.length_pos_of_leading found (by simp)
    simp only [Span.length]
    omega
  | malformed skipped length cause found =>
    have positive := Piece.length_pos_of_leading found (by simp)
    simp only [Span.length]
    omega

end Scanner

namespace Phrase

mutual

/-- The form of a phrase, with a reference to it, needs at most sixty-four bytes for every byte that
the tokens of the phrase cover. -/
theorem cost_le (phrase : Phrase) (visible : ∀ token ∈ phrase.tokens, 0 < token.span.length) :
    phrase.cost + 8 ≤ 64 * Token.covered phrase.tokens := by
  match phrase with
  | .leaf kind span =>
    have byte : 0 < span.length := visible ⟨kind.tokenKind, span⟩ (List.mem_singleton_self _)
    simp only [cost, tokens, Token.covered]
    omega
  | .list opening items closing =>
    simp only [tokens, List.mem_cons, List.mem_append] at visible
    have first := visible _ (.inl rfl)
    have last := visible _ (.inr (.inr (.inl rfl)))
    have inside := costAll_le items fun token member => visible token (.inr (.inl member))
    simp only [cost, tokens, Token.covered, Token.covered_append]
    simp only at first last
    omega
  | .quote mark quoted =>
    have first : 0 < mark.length := visible ⟨.quote, mark⟩ List.mem_cons_self
    have inside := cost_le quoted fun token member => visible token (List.mem_cons_of_mem _ member)
    simp only [cost, tokens, Token.covered]
    omega

/-- The forms of phrases, with references to them, need at most sixty-four bytes for every byte that
the tokens of the phrases cover. -/
theorem costAll_le (phrases : List Phrase)
    (visible : ∀ token ∈ tokensAll phrases, 0 < token.span.length) :
    costAll phrases + 8 * phrases.length ≤ 64 * Token.covered (tokensAll phrases) := by
  match phrases with
  | [] => exact Nat.le_refl 0
  | phrase :: rest =>
    have first := cost_le phrase fun token member => visible token (List.mem_append_left _ member)
    have others := costAll_le rest fun token member =>
      visible token (List.mem_append_right _ member)
    simp only [costAll, tokensAll, Token.covered_append, List.length_cons]
    omega

end

/-- The forms of a source need at most sixty-four bytes for every byte and its end. -/
theorem Derives.costAll_le {limit : Nat} {source : List UInt8} {phrases : List Phrase}
    (derives : Derives limit source phrases) :
    costAll phrases + (8 * phrases.length + 7) ≤ 64 * (source.length + 1) := by
  have same := derives.tokens
  rw [Scanner.tokens_eq_cut] at same
  have bytes := Scanner.covered_cut_le 0 source
  rw [← same, Token.covered_append] at bytes
  have forms := Phrase.costAll_le phrases fun token member => by
    have scanned := List.mem_append_left [Token.endOfInput source.length] member
    rw [same] at scanned
    obtain ⟨reported, found, rfl⟩ := List.mem_map.mp scanned
    exact Scanner.length_pos_of_mem_cut found (kind_ne_endOfInput_of_mem_all phrases member)
  omega

end Phrase

/-! ## Runs over phrases -/

namespace Nest

/-- The tokens of phrases and the end of the input are read as what the phrases are read as. -/
theorem converts_run {limit : Nat} (source : List UInt8) {phrases : List Phrase} {final : Token}
    (nonempty : phrases ≠ []) (within : Phrase.WithinAll limit 0 phrases)
    (last : final.kind = .endOfInput) :
    Build.Converts (empty.run limit source (Phrase.tokensAll phrases ++ [final]))
      (Phrase.costAll phrases + (8 * phrases.length + 7))
      (fun symbols => Phrase.convertAll source symbols phrases) := by
  have finishes (symbols : SymbolTable) : Build.Converts
      (run limit source ⟨[], (Phrase.convertAll source symbols phrases).value.reverse ++ []⟩
        [final]) (8 * phrases.length + 7)
      (fun symbols' => ⟨(Phrase.convertAll source symbols phrases).value, symbols', []⟩) := by
    have count := Phrase.length_convertAll source symbols phrases
    have some_form : (Phrase.convertAll source symbols phrases).value.reverse ≠ [] :=
      fun none_read => Phrase.convertAll_ne_nil source symbols nonempty
        (List.reverse_eq_nil_iff.mp none_read)
    rw [run, if_pos last, List.append_nil, finish_of_complete _ some_form, List.length_reverse,
      List.reverse_reverse, count]
    exact (Build.Converts.reserveReferences phrases.length).map fun _ => _
  rw [empty, run_tokensAll phrases [] [final] within]
  apply Build.Converts.weaken
    (Build.Converts.bind (Build.Converts.buildAll source phrases) finishes) (Nat.le_refl _)
  intro symbols
  simp only [List.append_nil]

/-- What a nest takes to the end of the input without failing is made of phrases. -/
theorem phrases_of_run {limit : Nat} {source : List UInt8} {tokens : List Token} {final : Token}
    {forms : List Form} {workspace workspace' : Workspace}
    (inner : ∀ token ∈ tokens, token.kind ≠ .endOfInput) (last : final.kind = .endOfInput)
    (complete : empty.run limit source (tokens ++ [final]) workspace = .ok forms workspace') :
    ∃ phrases, phrases ≠ [] ∧ tokens = Phrase.tokensAll phrases ∧
      Phrase.WithinAll limit 0 phrases := by
  have closes := closes_of_run inner last complete
  generalize open_frames : empty.frames = frames at closes
  cases closes with
  | top phrases within =>
    refine ⟨phrases, ?_, rfl, within⟩
    rintro rfl
    simp only [Phrase.tokensAll, List.nil_append, run, if_pos last] at complete
    cases complete
  | list => cases open_frames
  | quote => cases open_frames

end Nest

/-! ## Reads -/

namespace Scanner

/-- Every finding that is made while a source is cut into tokens. -/
def findings (source : List UInt8) : List Finding :=
  (cut 0 source).flatMap ReportedToken.findings

end Scanner

/-- A reading of `source` that went through: the forms and the names are those of `converted`, and
the findings reported are those of the scanner and, among them, those of `converted`. -/
structure Reading.Gives (reading : Reading) (session : Session) (source : List UInt8)
    (converted : Converted (List Form)) : Prop where
  result : reading.result = .ok ⟨converted.value⟩
  settings : reading.session.settings = session.settings
  symbols : reading.session.symbols = converted.symbols
  diagnostics : ∃ findings : List Finding,
    reading.session.diagnostics = session.diagnostics ++ findings.map Finding.diagnostic ∧
      findings.filter (fun finding => finding.cause.isLexical) = Scanner.findings source ∧
      findings.filter (fun finding => !finding.cause.isLexical) = converted.findings

/-- The tree or the fault that a run of a nest ends with. -/
def Build.outcome : EStateM.Result ReadError Workspace (List Form) → Except ReadError Tree
  | .ok forms _ => .ok ⟨forms⟩
  | .error problem _ => .error problem

/-- A reading of `source` that ends as `run` does: with its result, its names and its arena. The
findings reported are those of the run and, among them, findings of the scanner, all of them if the
reading went through. -/
structure Reading.Follows (reading : Reading) (session : Session) (source : List UInt8)
    (run : EStateM.Result ReadError Workspace (List Form)) : Prop where
  result : reading.result = Build.outcome run
  settings : reading.session.settings = session.settings
  symbols : reading.session.symbols = (Build.after run).symbols
  arena : reading.arena = (Build.after run).arena
  diagnostics : ∃ findings : List Finding,
    reading.session.diagnostics = session.diagnostics ++ findings.map Finding.diagnostic ∧
      findings.filter (fun finding => !finding.cause.isLexical) = (Build.after run).findings ∧
      ∀ tree, reading.result = .ok tree →
        findings.filter (fun finding => finding.cause.isLexical) = Scanner.findings source

/-- Findings are none if those of the scanner and the others are none. -/
theorem Finding.eq_nil_of_filter {findings : List Finding}
    (lexical : findings.filter (fun finding => finding.cause.isLexical) = [])
    (others : findings.filter (fun finding => !finding.cause.isLexical) = []) :
    findings = [] := by
  rw [List.filter_eq_nil_iff] at lexical others
  apply List.eq_nil_iff_forall_not_mem.mpr
  intro finding member
  have first := lexical finding member
  have second := others finding member
  simp_all

/-- Where nothing is found, nothing is reported. -/
theorem Reading.Gives.diagnostics_eq {reading : Reading} {session : Session}
    {source : List UInt8} {converted : Converted (List Form)}
    (gives : reading.Gives session source converted) (lexical : Scanner.findings source = [])
    (quiet : converted.findings = []) : reading.session.diagnostics = session.diagnostics := by
  obtain ⟨findings, reported, fromScanner, fromLeaves⟩ := gives.diagnostics
  have nothing := Finding.eq_nil_of_filter (fromScanner.trans lexical) (fromLeaves.trans quiet)
  rw [reported, nothing, List.map_nil, List.append_nil]

namespace Session

/-- Sessions with the same settings, names and diagnostics are the same. -/
theorem eq_of_fields {first second : Session} (settings : first.settings = second.settings)
    (symbols : first.symbols = second.symbols)
    (diagnostics : first.diagnostics = second.diagnostics) : first = second := by
  cases first
  cases second
  cases settings
  cases symbols
  cases diagnostics
  rfl

/-- A batch of tokens has at least one slot. -/
theorem capacity_batchWindow_pos (session : Session) : 0 < session.batchWindow.capacity := by
  have limit : Window.maxCapacity = 4294967295 := rfl
  simp only [batchWindow, Window.ofStorage, Window.capacity, Array.take_eq_extract,
    Array.size_extract, Array.size_replicate]
  omega

/-- The window of a feed at the start of a source has at least one slot. -/
theorem capacity_start_pos (session : Session) (source : List UInt8) :
    0 < (TokenFeed.start (.start source) session.batchWindow).window.capacity :=
  Nat.lt_of_lt_of_eq (capacity_batchWindow_pos session) (Window.capacity_reset _).symm

/-- What a read drives through its nest is, but for the findings of the scanner, a run of the nest
on all tokens of the source. -/
theorem hush_drive_start (session : Session) (arena : Arena) (source : List UInt8) :
    Build.hush ((TokenFeed.start (.start source) session.batchWindow).drive
        session.settings.depthLimit source .empty ⟨arena, session.symbols, []⟩) =
      Nest.empty.run session.settings.depthLimit source (Scanner.tokens source)
        ⟨arena, session.symbols, []⟩ := by
  rw [← TokenFeed.tokens_start source session.batchWindow]
  exact (TokenFeed.run_quiet_eq_hush_drive _ source _ (capacity_start_pos session source) .empty
    ⟨arena, session.symbols, []⟩).symm

/-- A source that is too long is refused before anything is done. -/
theorem read_of_long (session : Session) (arena : Arena) {source : List UInt8}
    (long : Scanner.sourceLimit ≤ source.length) :
    session.read arena source = ⟨.error (.sourceTooLarge source.length), session, arena⟩ :=
  if_pos long

/-- A read of a source that is not too long follows the run of a nest on its tokens. -/
theorem read_follows (session : Session) (arena : Arena) {source : List UInt8}
    (short : source.length < Scanner.sourceLimit) :
    (session.read arena source).Follows session source
      (Nest.empty.run session.settings.depthLimit source (Scanner.tokens source)
        ⟨arena, session.symbols, []⟩) := by
  rw [← hush_drive_start, read, if_neg (Nat.not_le_of_lt short)]
  cases drove : (TokenFeed.start (.start source) session.batchWindow).drive
      session.settings.depthLimit source .empty ⟨arena, session.symbols, []⟩ with
  | error problem stopped =>
    simp only [drove, conclude, report]
    refine ⟨rfl, rfl, rfl, rfl, stopped.findings, rfl, rfl, ?_⟩
    rintro tree ⟨⟩
  | ok forms done =>
    obtain ⟨front, listed, inner⟩ := Scanner.tokens_eq_append_endOfInput source
    have left := (TokenFeed.tokens_start source session.batchWindow).trans listed
    have lexical := TokenFeed.lexical_drive inner rfl (capacity_start_pos session source) left drove
    simp only [drove, conclude, report]
    exact ⟨rfl, rfl, rfl, rfl, done.findings, rfl, rfl, fun _ _ => lexical⟩

/-- A read of a source that is not too long follows recursive descent on its tokens. -/
theorem read_follows_body (session : Session) (arena : Arena) {source : List UInt8}
    (short : source.length < Scanner.sourceLimit) :
    (session.read arena source).Follows session source
      (Descent.body session.settings.depthLimit source (Scanner.tokens source)
        ⟨arena, session.symbols, []⟩) := by
  rw [← Nest.run_empty_eq_body]
  exact session.read_follows arena short

/-- If a nest can be run on all tokens of a source, the source is read as what the run gives. -/
theorem gives_of_run {session : Session} {arena : Arena} {source : List UInt8} {forms : List Form}
    {done : Workspace} (short : source.length < Scanner.sourceLimit)
    (ran : Nest.empty.run session.settings.depthLimit source (Scanner.tokens source)
      ⟨arena, session.symbols, []⟩ = .ok forms done) :
    (session.read arena source).Gives session source ⟨forms, done.symbols, done.findings⟩ := by
  have follows := session.read_follows arena short
  rw [ran] at follows
  obtain ⟨findings, reported, others, lexical⟩ := follows.diagnostics
  exact ⟨follows.result, follows.settings, follows.symbols, findings, reported,
    lexical _ follows.result, others⟩

/-- If a nest cannot be run on all tokens of a source, the source is refused for the same reason. -/
theorem result_of_run {session : Session} {arena : Arena} {source : List UInt8}
    {problem : ReadError} {stopped : Workspace} (short : source.length < Scanner.sourceLimit)
    (ran : Nest.empty.run session.settings.depthLimit source (Scanner.tokens source)
      ⟨arena, session.symbols, []⟩ = .error problem stopped) :
    (session.read arena source).result = .error problem := by
  have follows := session.read_follows arena short
  rw [ran] at follows
  exact follows.result

/-- A source that derives phrases is read as what they are read as, and only the arena can stop
that. -/
theorem read_of_derives {session : Session} {source : List UInt8} {phrases : List Phrase}
    (arena : Arena) (short : source.length < Scanner.sourceLimit)
    (derives : Phrase.Derives session.settings.depthLimit source phrases) :
    (session.read arena source).Gives session source
        (Phrase.convertAll source session.symbols phrases) ∨
      ∃ problem, (session.read arena source).result = .error (.arena problem) ∧
        arena.remaining.toNat < 64 * (source.length + 1) := by
  have ended : (Token.endOfInput source.length).kind = .endOfInput := rfl
  have converts := Nest.converts_run source derives.nonempty derives.within ended
  rw [derives.tokens] at converts
  rcases converts ⟨arena, session.symbols, []⟩ with
    ⟨arena', ran, -, -⟩ | ⟨problem, stopped, ran, full⟩
  · exact .inl (gives_of_run short ran)
  · have enough := derives.costAll_le
    have inside := arena.offset_le_capacity
    have left := arena.toNat_remaining
    simp only at full
    exact .inr ⟨problem, result_of_run short ran, by omega⟩

/-- Whether an arena has room for a read: sixty-four bytes of it are left for every byte of the
source and its end, or it did not stop the read. -/
def HasRoom (session : Session) (arena : Arena) (source : List UInt8) : Prop :=
  64 * (source.length + 1) ≤ arena.remaining.toNat ∨
    ∀ problem, (session.read arena source).result ≠ .error (.arena problem)

/-- A source that derives phrases is read as what they are read as if there are sixty-four bytes of
arena for every byte of it and its end, or if the arena did not stop the read. -/
theorem gives_of_derives {session : Session} {arena : Arena} {source : List UInt8}
    {phrases : List Phrase} (short : source.length < Scanner.sourceLimit)
    (derives : Phrase.Derives session.settings.depthLimit source phrases)
    (room : 64 * (source.length + 1) ≤ arena.remaining.toNat ∨
      ∀ problem, (session.read arena source).result ≠ .error (.arena problem)) :
    (session.read arena source).Gives session source
      (Phrase.convertAll source session.symbols phrases) := by
  rcases read_of_derives arena short derives with gives | ⟨problem, failed, full⟩
  · exact gives
  · rcases room with enough | unstopped
    · omega
    · exact absurd failed (unstopped problem)

/-- A source that is read to its end derives phrases. -/
theorem derives_of_read {session : Session} {arena : Arena} {source : List UInt8} {tree : Tree}
    (succeeds : (session.read arena source).result = .ok tree) :
    source.length < Scanner.sourceLimit ∧
      ∃ phrases, Phrase.Derives session.settings.depthLimit source phrases := by
  by_cases long : Scanner.sourceLimit ≤ source.length
  · rw [read_of_long session arena long] at succeeds
    cases succeeds
  have short := Nat.lt_of_not_le long
  refine ⟨short, ?_⟩
  cases ran : Nest.empty.run session.settings.depthLimit source (Scanner.tokens source)
      ⟨arena, session.symbols, []⟩ with
  | error problem stopped => cases succeeds.symm.trans (result_of_run short ran)
  | ok forms done =>
    obtain ⟨front, listed, inner⟩ := Scanner.tokens_eq_append_endOfInput source
    rw [listed] at ran
    obtain ⟨phrases, nonempty, same, within⟩ := Nest.phrases_of_run inner rfl ran
    exact ⟨phrases, nonempty, by rw [listed, same], within⟩

/-- A source that is read to its end derives phrases, and it is read as what they are read as. -/
theorem gives_of_read {session : Session} {arena : Arena} {source : List UInt8} {tree : Tree}
    (succeeds : (session.read arena source).result = .ok tree) :
    ∃ phrases, Phrase.Derives session.settings.depthLimit source phrases ∧
      tree = ⟨(Phrase.convertAll source session.symbols phrases).value⟩ ∧
      (session.read arena source).Gives session source
        (Phrase.convertAll source session.symbols phrases) := by
  obtain ⟨short, phrases, derives⟩ := derives_of_read succeeds
  have unstopped : ∀ problem, (session.read arena source).result ≠ .error (.arena problem) := by
    intro problem failed
    cases succeeds.symm.trans failed
  have gives := gives_of_derives short derives (.inr unstopped)
  have same := succeeds.symm.trans gives.result
  rw [Except.ok.injEq] at same
  exact ⟨phrases, derives, same, gives⟩

end Session

end LispReader
