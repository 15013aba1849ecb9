import LispReader.Proofs.ReportOrder
import LispReader.Proofs.SafeScan
import LispReader.Proofs.SpanNesting
import LispReader.Proofs.StringLiterals

/-!
# Reading within bounds

A read relies on the scanner: there are tokens up to the end of the input, the span of a token lies
inside the source, the literal of a string has a quotation mark at both ends and its backslashes in
pairs, and a float literal has a value. The turns of a read, one for each token that it takes, are
followed here with the feed and the nest that each of them starts with. The tokens of a source have
all of these properties, and the frames of a nest have the spans of tokens, so no turn relies on
anything that does not hold. For the same reason a read that fails names the span of a token.
-/

namespace LispReader

/-! ## Tokens and spans -/

/-- What reading a token relies on. -/
structure Token.ReadsSafely (source : List UInt8) (token : Token) : Prop where
  /-- The ends of the span are in order, and the lexeme is in the source. -/
  ordered : token.span.start ≤ token.span.stop
  inside : token.span.stop ≤ source.length
  /-- A float literal has a value. -/
  float : token.kind = .float → ∃ value, Binary64.read? (token.lexeme source) = some value
  /-- A string literal has a quotation mark at either end to leave out, and no backslash in between
  is without a byte that it escapes. -/
  string : token.kind = .string → ∃ text, Lexeme.Quotable text ∧
    token.lexeme source = Byte.quotationMark :: (text ++ [Byte.quotationMark])

/-- What reading a token of a source relies on holds. -/
theorem Token.readsSafely_of_mem {source : List UInt8} {token : Token}
    (listed : token ∈ Scanner.tokens source) : token.ReadsSafely source := by
  have bounds : token.span.start ≤ token.span.stop ∧ token.span.stop ≤ source.length := by
    by_cases inner : token.kind = .endOfInput
    · rw [Scanner.eq_endOfInput listed inner]
      exact ⟨Nat.le_refl _, Nat.le_refl _⟩
    · have visible := Scanner.visible_of_mem_tokens listed inner
      exact ⟨Nat.le_of_lt visible.start_lt_stop, visible.stop_le_length⟩
  refine ⟨bounds.1, bounds.2, fun float => ?_, fun string => ?_⟩
  · exact ((Scanner.scanned_tokens source).admits token listed .float float).exists_read?
  · obtain ⟨reported, member, rfl⟩ := List.mem_map.mp (Scanner.tokens_eq_cut source ▸ listed)
    exact @Scanner.exists_quotable [] _ _ member string

/-- A span with its ends in order covers only such spans. -/
theorem Span.ordered_cover {first : Span} (ordered : first.start ≤ first.stop) (second : Span) :
    (first.cover second).start ≤ (first.cover second).stop :=
  Nat.le_trans (Nat.min_le_left _ _) (Nat.le_trans ordered (Nat.le_max_left _ _))

/-- The span of the parenthesis or apostrophe that opened a frame. -/
def Frame.mark : Frame → Span
  | .list opening _ => opening
  | .quote mark => mark

/-! ## What a step leaves open and what it names -/

/-- Whether the part of the source that an error concerns is that of a token. -/
def ReadError.Names (source : List UInt8) (problem : ReadError) : Prop :=
  ∀ span, problem.span? = some span → ∃ token ∈ Scanner.tokens source, token.span = span

/-- An error at a token concerns it. -/
theorem ReadError.names_of_mem {source : List UInt8} {problem : ReadError} {token : Token}
    (listed : token ∈ Scanner.tokens source) (place : problem.span? = some token.span) :
    problem.Names source :=
  fun _ named => ⟨token, listed, Option.some.inj (place.symm.trans named)⟩

namespace Build

variable {α β : Type} {source : List UInt8}

/-- A step whose value, if it gives one, has a property, and whose error concerns a token. -/
def Yields (source : List UInt8) (holds : α → Prop) (step : Build α) : Prop :=
  ∀ workspace, match step workspace with
    | .ok value _ => holds value
    | .error problem _ => problem.Names source

namespace Yields

variable {holds : α → Prop}

/-- A value that has the property is given. -/
theorem pure {value : α} (held : holds value) : Yields source holds (Pure.pure value) :=
  fun _ => held

/-- An error that concerns a token is thrown. -/
theorem throw {problem : ReadError} (names : problem.Names source) :
    Yields source holds (MonadExcept.throw problem) := fun _ => names

/-- After a step whose value has a property another goes on. -/
theorem bind {first : Build β} {second : β → Build α} {between : β → Prop}
    (yields : Yields source between first)
    (goes_on : ∀ value, between value → Yields source holds (second value)) :
    Yields source holds (first >>= second) := by
  intro workspace
  have given := yields workspace
  cases ran : first workspace with
  | ok value after =>
    rw [ran] at given
    rw [bind_of_ok ran]
    exact goes_on value given after
  | error problem after =>
    rw [ran] at given
    rw [bind_of_error ran]
    exact given

/-- After a step that only the arena can stop another goes on. -/
theorem after {first : Build β} {second : β → Build α} {cost : Nat}
    {result : SymbolTable → Converted β} (reads : Converts first cost result)
    (goes_on : ∀ value, Yields source holds (second value)) :
    Yields source holds (first >>= second) := by
  intro workspace
  rcases reads workspace with ⟨arena, ran, -, -⟩ | ⟨problem, stopped, ran, -⟩
  · rw [bind_of_ok ran]
    exact goes_on _ _
  · rw [bind_of_error ran]
    exact fun span named => nomatch named

end Yields

end Build

namespace Nest

variable {source : List UInt8}

/-- Whether every open frame was opened by a token of the source. -/
def Opened (source : List UInt8) (frames : List Frame) : Prop :=
  ∀ frame ∈ frames, ∃ token : Token, token.Visible source ∧ token.span = frame.mark

/-- The mark of an open frame has its ends in order. -/
theorem Opened.ordered {frames : List Frame} (opened : Opened source frames) :
    ∀ frame ∈ frames, frame.mark.start ≤ frame.mark.stop := by
  intro frame member
  obtain ⟨token, visible, same⟩ := opened frame member
  rw [← same]
  exact Nat.le_of_lt visible.start_lt_stop

/-- Putting a form in its place opens no frame. -/
theorem yields_place (form : Form) {frames : List Frame} (forms : List Form)
    (opened : Opened source frames) :
    Build.Yields source (fun nest => Opened source nest.frames) (place form frames forms) := by
  induction frames generalizing form with
  | nil => exact .pure opened
  | cons frame outer ih =>
    cases frame with
    | list opening items =>
      obtain ⟨first, others⟩ := List.forall_mem_cons.mp opened
      exact .pure (List.forall_mem_cons.mpr ⟨first, others⟩)
    | quote mark => exact .after .reserveForm fun _ => ih _ (List.forall_mem_cons.mp opened).2

/-- A token opens at most its own frame, and an error concerns that token. -/
theorem yields_startForm {limit : Nat} {nest : Nest} {token : Token}
    (listed : token ∈ Scanner.tokens source) (inner : token.kind ≠ .endOfInput)
    (opened : Opened source nest.frames) :
    Build.Yields source (fun nest => Opened source nest.frames)
      (nest.startForm limit source token) := by
  have visible := Scanner.visible_of_mem_tokens listed inner
  unfold startForm
  split
  · exact .throw (ReadError.names_of_mem listed rfl)
  · obtain ⟨kind, span⟩ := token
    cases kind with
    | leftParen | quote =>
      exact .pure (List.forall_mem_cons.mpr ⟨⟨_, visible, rfl⟩, opened⟩)
    | rightParen | endOfInput => exact .throw (ReadError.names_of_mem listed rfl)
    | atom => exact .after (.leaf .atom span source) fun form => yields_place form _ opened
    | integer => exact .after (.leaf .integer span source) fun form => yields_place form _ opened
    | float => exact .after (.leaf .float span source) fun form => yields_place form _ opened
    | string => exact .after (.leaf .string span source) fun form => yields_place form _ opened
    | error => exact .after (.leaf .error span source) fun form => yields_place form _ opened

/-- Taking a token leaves frames open that tokens of the source opened, and an error concerns that
token. -/
theorem yields_take {limit : Nat} {nest : Nest} {token : Token}
    (listed : token ∈ Scanner.tokens source) (inner : token.kind ≠ .endOfInput)
    (opened : Opened source nest.frames) :
    Build.Yields source (fun nest => Opened source nest.frames) (nest.take limit source token) := by
  unfold take
  split
  · exact .throw (ReadError.names_of_mem listed rfl)
  · rename_i opening items outer paren open_list
    rw [open_list] at opened
    exact .after (.reserveReferences _) fun _ => .after .reserveForm fun _ =>
      yields_place _ _ (List.forall_mem_cons.mp opened).2
  · exact yields_startForm listed inner opened

/-- At the end of the input an error concerns that end or a token that opened a frame. -/
theorem yields_finish {limit : Nat} {nest : Nest} {token : Token}
    (listed : token ∈ Scanner.tokens source) (opened : Opened source nest.frames) :
    Build.Yields source (fun _ => True) (nest.finish limit token.span) := by
  unfold finish
  split
  · exact .throw fun span same => nomatch same
  · exact .after (.reserveReferences _) fun _ => .pure trivial
  · rename_i open_list
    rw [open_list] at opened
    obtain ⟨opening, visible, same⟩ := (List.forall_mem_cons.mp opened).1
    exact .throw (ReadError.names_of_mem visible.listed (congrArg some same.symm))
  · split
    · exact .throw (ReadError.names_of_mem listed rfl)
    · exact .throw (ReadError.names_of_mem listed rfl)

/-- An error of a run up to the end of the input concerns one of the tokens. -/
theorem yields_run {limit : Nat} {front : List Token} {final : Token}
    (inner : ∀ token ∈ front, token.kind ≠ .endOfInput) (last : final.kind = .endOfInput)
    (listed : ∀ token ∈ front ++ [final], token ∈ Scanner.tokens source) {nest : Nest}
    (opened : Opened source nest.frames) :
    Build.Yields source (fun _ => True) (nest.run limit source (front ++ [final])) := by
  induction front generalizing nest with
  | nil =>
    rw [List.nil_append, run, if_pos last]
    exact yields_finish (listed final (List.mem_singleton_self _)) opened
  | cons token front ih =>
    obtain ⟨proper, inner⟩ := List.forall_mem_cons.mp inner
    obtain ⟨inside, rest⟩ := List.forall_mem_cons.mp listed
    rw [List.cons_append, run, if_neg proper]
    exact .bind (yields_take inside proper opened) fun nest opened => ih inner rest opened

end Nest

/-! ## Turns -/

/-- What the turn of a read relies on that starts with a feed and a nest. -/
structure TokenFeed.TurnsSafely (source : List UInt8) (feed : TokenFeed) (nest : Nest) : Prop where
  /-- A token is handed out, which no end of the input has to stand in for. -/
  token : ∃ token, feed.next.token = some token ∧ token.ReadsSafely source
  /-- It is taken from a slot of the window, and the next slot is counted in words. That the window
  lies inside its slots with its ends in order is a part of what a window is. -/
  slot : feed.refill.1.window.start < feed.refill.1.window.capacity ∧
    feed.refill.1.window.capacity < UInt32.size
  /-- Whatever completes a frame, the span of the form has its ends in order. -/
  cover : ∀ frame ∈ nest.frames, ∀ other,
    (frame.mark.cover other).start ≤ (frame.mark.cover other).stop

namespace Session

variable {session : Session} {arena : Arena} {source : List UInt8}

/-- The feeds, nests and workspaces with which the turns of a read start: those that it starts with
itself, and what a turn goes on with that takes a token before the end of the input. -/
inductive Turns (session : Session) (arena : Arena) (source : List UInt8) :
    TokenFeed → Nest → Workspace → Prop where
  | start : Turns session arena source (.start (.start source) session.batchWindow) .empty
      ⟨arena, session.symbols, []⟩
  | turn {feed : TokenFeed} {nest after : Nest} {workspace between : Workspace} {token : Token}
      (turns : Turns session arena source feed nest workspace)
      (handed : feed.next.token = some token) (proper : token.kind ≠ .endOfInput)
      (took : (Build.report feed.next.findings >>= fun _ =>
        nest.take session.settings.depthLimit source token) workspace = .ok after between) :
    Turns session arena source feed.next.feed after between

/-- A read ends as it would go on from any of its turns. -/
theorem Turns.drive_eq {feed : TokenFeed} {nest : Nest} {workspace : Workspace}
    (turns : session.Turns arena source feed nest workspace) :
    feed.drive session.settings.depthLimit source nest workspace =
      (TokenFeed.start (.start source) session.batchWindow).drive session.settings.depthLimit
        source .empty ⟨arena, session.symbols, []⟩ := by
  induction turns with
  | start => rfl
  | turn turns handed proper took ih =>
    rw [← ih, TokenFeed.drive_of_some handed, if_neg proper, ← bind_assoc,
      Build.bind_of_ok took]

/-- What holds at the start of every turn: there is a slot for a token, the feed is in place, what
has been handed out is the front of the tokens without the end of the input, and the open frames
were opened by tokens. -/
structure OnCourse (source : List UInt8) (feed : TokenFeed) (nest : Nest) : Prop where
  slots : 0 < feed.window.capacity
  place : feed.InPlace source
  taken : ∃ front, Scanner.tokens source = front ++ feed.tokens ∧
    ∀ token ∈ front, token.kind ≠ .endOfInput
  opened : Nest.Opened source nest.frames

/-- On its course a feed has a token left. -/
theorem OnCourse.exists_tokens_eq {feed : TokenFeed} {nest : Nest}
    (course : OnCourse source feed nest) :
    ∃ token rest, feed.tokens = token :: rest ∧ token ∈ Scanner.tokens source := by
  obtain ⟨front, parts, inner⟩ := course.taken
  cases left : feed.tokens with
  | nil =>
    obtain ⟨others, listed, -⟩ := Scanner.tokens_eq_append_endOfInput source
    rw [left, List.append_nil] at parts
    exact absurd rfl (inner (.endOfInput source.length) (by simp [← parts, listed]))
  | cons token rest => exact ⟨token, rest, rfl, by simp [parts, left]⟩

/-- Every turn of a read starts on its course. -/
theorem Turns.onCourse {feed : TokenFeed} {nest : Nest} {workspace : Workspace}
    (turns : session.Turns arena source feed nest workspace) : OnCourse source feed nest := by
  induction turns with
  | start =>
    have narrow : session.batchWindow.capacity ≤ Window.maxCapacity := by
      have limit : Window.maxCapacity = 4294967295 := rfl
      have bound := session.settings.tokenBatch.toNat_lt
      rw [capacity_batchWindow]
      omega
    exact ⟨capacity_batchWindow_pos session, ⟨Scanner.standsIn_start source, narrow⟩,
      ⟨[], (TokenFeed.tokens_start source _).symm, fun _ member => nomatch member⟩,
      fun _ member => nomatch member⟩
  | @turn _ _ _ _ _ token turns handed proper took ih =>
    obtain ⟨first, rest, left, listed⟩ := ih.exists_tokens_eq
    obtain ⟨given, others, -, capacity⟩ := TokenFeed.next_of_tokens ih.slots left
    obtain rfl : token = first := Option.some.inj (handed.symm.trans given)
    obtain ⟨front, parts, inner⟩ := ih.taken
    obtain ⟨_, reported, -, took⟩ := Build.bind_eq_ok took
    have yields : Build.Yields source (fun nest => Nest.Opened source nest.frames)
        (Nest.take session.settings.depthLimit source _ token) :=
      Nest.yields_take listed proper ih.opened
    have opened := yields reported
    rw [took] at opened
    refine ⟨capacity ▸ ih.slots, ih.place.next, ⟨front ++ [token], ?_, ?_⟩, opened⟩
    · rw [parts, left, others, List.append_assoc, List.singleton_append]
    · intro earlier member
      rcases List.mem_append.mp member with before | last
      · exact inner earlier before
      · exact List.mem_singleton.mp last ▸ proper

/-- All that a turn of a read relies on holds. -/
theorem Turns.turnsSafely {feed : TokenFeed} {nest : Nest} {workspace : Workspace}
    (turns : session.Turns arena source feed nest workspace) : feed.TurnsSafely source nest := by
  have limit : Window.maxCapacity + 1 = UInt32.size := rfl
  have course := turns.onCourse
  obtain ⟨token, rest, left, listed⟩ := course.exists_tokens_eq
  have handed := (TokenFeed.next_of_tokens course.slots left).1
  refine ⟨⟨token, handed, Token.readsSafely_of_mem listed⟩, ⟨?_, ?_⟩, fun frame member other => ?_⟩
  · have inside := feed.refill.1.window.stop_le_size
    obtain ⟨first, -⟩ := TokenFeed.next_spec feed
    have live : feed.refill.1.window.length ≠ 0 := by
      intro drained
      have empty : feed.refill.1.window.toList = [] :=
        List.eq_nil_of_length_eq_zero (by rw [Window.length_toList, drained])
      rw [handed, empty] at first
      cases first
    simp only [Window.length, Window.capacity] at live ⊢
    omega
  · exact Nat.lt_of_le_of_lt course.place.refill.narrow (by omega)
  · exact Span.ordered_cover (course.opened.ordered frame member) other

/-- If an error of a read concerns a part of its source, then that of a token. -/
theorem names_of_read {session : Session} {arena : Arena} {problem : ReadError}
    (fails : (session.read arena source).result = .error problem) : problem.Names source := by
  by_cases long : Scanner.sourceLimit ≤ source.length
  · rw [read_of_long session arena long] at fails
    cases fails
    exact fun span named => nomatch named
  · obtain ⟨front, listed, inner⟩ := Scanner.tokens_eq_append_endOfInput source
    have none_open : Nest.Opened source Nest.empty.frames := fun frame member => nomatch member
    have yields : Build.Yields source (fun _ => True)
        (Nest.run session.settings.depthLimit source .empty (Scanner.tokens source)) := by
      rw [listed]
      exact Nest.yields_run inner rfl (fun token member => listed ▸ member) none_open
    have named := yields ⟨arena, session.symbols, []⟩
    rw [(session.read_follows arena (Nat.lt_of_not_le long)).result] at fails
    cases ran : Nest.run session.settings.depthLimit source .empty (Scanner.tokens source)
        ⟨arena, session.symbols, []⟩ with
    | ok forms workspace =>
      rw [ran] at fails
      cases fails
    | error failed workspace =>
      rw [ran] at fails named
      cases fails
      exact named

end Session

end LispReader
