import LispReader.Proofs.Descent
import LispReader.Proofs.TokenStream
import LispReader.Session

/-!
# Reading token by token

A feed hands out the tokens of a source in order, whatever the size of its window, so driving them
through a nest is the same as running the nest on all tokens of the source. The scanner reads ahead
by up to a window, and its findings come between those of the forms; leaving them out, both ways
agree in everything, and when the read is complete every finding of the scanner has been made.
-/

namespace LispReader

namespace TokenFeed

/-- The tokens that a feed has not handed out. -/
def tokens (feed : TokenFeed) : List Token :=
  feed.window.toList ++ feed.scanner.upcoming.map ReportedToken.token

/-- The findings that the scanner of a feed has not made. -/
def findings (feed : TokenFeed) : List Finding :=
  feed.scanner.upcoming.flatMap ReportedToken.findings

/-- A feed at the start of a source hands out all its tokens. -/
theorem tokens_start (source : List UInt8) (window : Window Token) :
    (start (.start source) window).tokens = Scanner.tokens source := by
  rw [Scanner.tokens_eq_cut]
  rfl

/-- A window with slots is refilled if any token is left. Refilling neither loses nor reorders
tokens, and makes the findings of those it scans. -/
theorem refill_spec (feed : TokenFeed) (slots : 0 < feed.window.capacity) :
    feed.refill.1.tokens = feed.tokens ∧
      feed.refill.2 ++ feed.refill.1.findings = feed.findings ∧
      feed.refill.1.window.capacity = feed.window.capacity ∧
      (feed.refill.1.window.toList = [] → feed.tokens = []) := by
  unfold refill
  split
  · rename_i drained
    have takes := Scanner.takes_scan feed.scanner feed.window.reset
    have live : feed.window.toList = [] := by
      apply List.eq_nil_of_length_eq_zero
      rw [Window.length_toList, Window.length, beq_iff_eq.mp drained, Nat.sub_self]
    refine ⟨?_, ?_, takes.capacity, ?_⟩
    · simp only [tokens, live, takes.toList, takes.upcoming, Window.toList_reset,
        List.nil_append, ← List.map_append, List.take_append_drop]
    · simp only [findings, takes.findings, takes.upcoming, ← List.flatMap_append,
        List.take_append_drop]
    · intro empty
      rw [takes.toList, Window.toList_reset, List.nil_append, List.map_eq_nil_iff,
        List.take_eq_nil_iff, Window.room_reset] at empty
      rcases empty with none_free | nothing
      · omega
      · simp [tokens, live, nothing]
  · rename_i waiting
    refine ⟨rfl, rfl, rfl, fun empty => ?_⟩
    have length := congrArg List.length empty
    have order := feed.window.start_le_stop
    simp only [Window.length_toList, Window.length, List.length_nil] at length
    exact absurd (beq_iff_eq.mpr (by omega)) waiting

/-- A feed hands out its first token, and what is left are the others. -/
theorem next_of_tokens {feed : TokenFeed} {token : Token} {rest : List Token}
    (slots : 0 < feed.window.capacity) (left : feed.tokens = token :: rest) :
    feed.next.token = some token ∧ feed.next.feed.tokens = rest ∧
      feed.next.findings ++ feed.next.feed.findings = feed.findings ∧
      feed.next.feed.window.capacity = feed.window.capacity := by
  obtain ⟨same, found, capacity, drained⟩ := refill_spec feed slots
  rw [left] at same drained
  cases live : feed.refill.1.window.toList with
  | nil => cases drained live
  | cons first others =>
    obtain ⟨window, taken, listed⟩ := Window.pop?_of_toList live
    simp only [tokens, live, List.cons_append, List.cons.injEq] at same
    obtain ⟨rfl, same⟩ := same
    unfold next
    simp only [taken]
    refine ⟨trivial, ?_, found, (Window.capacity_pop? taken).trans capacity⟩
    rw [← same, ← listed]
    rfl

/-- A feed without tokens hands out nothing and finds nothing. -/
theorem next_of_nil {feed : TokenFeed} (slots : 0 < feed.window.capacity)
    (left : feed.tokens = []) : feed.next.token = none ∧ feed.next.findings = [] := by
  obtain ⟨same, found, -, -⟩ := refill_spec feed slots
  have nothing : feed.findings = [] := by
    simp only [tokens, List.append_eq_nil_iff, List.map_eq_nil_iff] at left
    simp [findings, left.2]
  have live : feed.refill.1.window.toList = [] := by
    rw [left, tokens] at same
    exact (List.append_eq_nil_iff.mp same).1
  rw [nothing, List.append_eq_nil_iff] at found
  unfold next
  cases taken : feed.refill.1.window.pop? with
  | none =>
    simp only [taken]
    exact ⟨trivial, found.1⟩
  | some pair =>
    rw [Window.toList_pop? taken] at live
    cases live

end TokenFeed

/-! ## Steps that make no lexical findings -/

/-- Of findings that are all lexical, or all not, a filter for that leaves all or none. -/
theorem Finding.filter_of_isLexical {findings : List Finding} {lexical : Bool}
    (alike : ∀ finding ∈ findings, finding.cause.isLexical = lexical) :
    findings.filter (·.cause.isLexical) = (if lexical then findings else []) ∧
      findings.filter (!·.cause.isLexical) = (if lexical then [] else findings) := by
  cases lexical with
  | true =>
    refine ⟨List.filter_eq_self.mpr alike, List.filter_eq_nil_iff.mpr fun finding member => ?_⟩
    simp [alike finding member]
  | false =>
    refine ⟨List.filter_eq_nil_iff.mpr fun finding member => ?_,
      List.filter_eq_self.mpr fun finding member => ?_⟩
    · simp [alike finding member]
    · simp [alike finding member]

namespace Workspace

/-- The workspace without the findings of the scanner. -/
def quiet (workspace : Workspace) : Workspace :=
  { workspace with findings := workspace.findings.filter fun finding => !finding.cause.isLexical }

/-- The findings of the scanner. -/
def lexical (workspace : Workspace) : List Finding :=
  workspace.findings.filter fun finding => finding.cause.isLexical

end Workspace

namespace Build

/-- The result of a step without the findings of the scanner. -/
def hush {α : Type} : EStateM.Result ReadError Workspace α → EStateM.Result ReadError Workspace α
  | .ok value workspace => .ok value workspace.quiet
  | .error problem workspace => .error problem workspace.quiet

/-- The workspace after a step. -/
def after {α : Type} : EStateM.Result ReadError Workspace α → Workspace
  | .ok _ workspace => workspace
  | .error _ workspace => workspace

/-- A step that makes no lexical findings and does not heed those made before it. -/
def IgnoresLexical {α : Type} (step : Build α) : Prop :=
  ∀ workspace, step workspace.quiet = hush (step workspace) ∧
    (after (step workspace)).lexical = workspace.lexical

namespace IgnoresLexical

variable {α β : Type}

/-- Doing nothing is such a step. -/
theorem pure (value : α) : IgnoresLexical (Pure.pure value) := fun _ => ⟨rfl, rfl⟩

/-- Failing is such a step. -/
theorem throw (problem : ReadError) : IgnoresLexical (MonadExcept.throw problem : Build α) :=
  fun _ => ⟨rfl, rfl⟩

/-- One such step after another is such a step. -/
theorem bind {first : Build α} {second : α → Build β} (ignores : IgnoresLexical first)
    (goes_on : ∀ value, IgnoresLexical (second value)) : IgnoresLexical (first >>= second) := by
  intro workspace
  obtain ⟨same, kept⟩ := ignores workspace
  cases ran : first workspace with
  | ok value between =>
    rw [ran] at same kept
    rw [bind_of_ok ran, bind_of_ok same]
    obtain ⟨same', kept'⟩ := goes_on value between
    exact ⟨same', kept'.trans kept⟩
  | error problem between =>
    rw [ran] at same kept
    rw [bind_of_error ran, bind_of_error same]
    exact ⟨rfl, kept⟩

/-- Paying does not heed findings. -/
theorem reserve (size align : UInt64) : IgnoresLexical (reserve size align) := by
  intro workspace
  simp only [Build.reserve, Workspace.quiet]
  cases workspace.arena.allocate size align with
  | ok granted => exact ⟨rfl, rfl⟩
  | error problem => exact ⟨rfl, rfl⟩

/-- Interning does not heed findings. -/
theorem intern (name : String) : IgnoresLexical (intern name) := fun _ => ⟨rfl, rfl⟩

/-- The causes for which a token has no value are not lexical. -/
theorem refuse {cause : Cause} (conversion : cause.isLexical = false) (span : Span) :
    IgnoresLexical (refuse cause span) := by
  refine bind ?_ fun _ => pure _
  intro workspace
  simp [report, hush, after, Workspace.quiet, Workspace.lexical, conversion]

/-- Leaves are built by such steps. -/
theorem leaf (kind : LeafKind) (span : Span) (source : List UInt8) :
    IgnoresLexical (leaf ⟨kind.tokenKind, span⟩ source) := by
  rw [leaf_eq]
  refine bind ?_ fun _ => bind (reserve _ _) fun _ => pure _
  cases kind with
  | atom =>
    simp only [content, atom]
    split
    · exact bind (intern _) fun _ => pure _
    · exact refuse rfl _
  | integer =>
    simp only [content, integer]
    split
    · exact pure _
    · exact refuse rfl _
  | float =>
    simp only [content, float]
    split
    · exact pure _
    · exact refuse rfl _
  | string => exact bind (reserve _ _) fun _ => pure _
  | error => exact pure _

/-- Forms are put in their place by such steps. -/
theorem place (form : Form) (frames : List Frame) (forms : List Form) :
    IgnoresLexical (Nest.place form frames forms) := by
  induction frames generalizing form with
  | nil => exact pure _
  | cons frame outer ih =>
    cases frame with
    | list opening items => exact pure _
    | quote mark => exact bind (reserve _ _) fun _ => ih _

/-- A nest starts forms by such steps. -/
theorem startForm (limit : Nat) (source : List UInt8) (nest : Nest) (token : Token) :
    IgnoresLexical (nest.startForm limit source token) := by
  obtain ⟨kind, span⟩ := token
  unfold Nest.startForm
  split
  · exact throw _
  · cases kind with
    | leftParen | quote => exact pure _
    | rightParen | endOfInput => exact throw _
    | atom => exact bind (leaf .atom span source) fun _ => place _ _ _
    | integer => exact bind (leaf .integer span source) fun _ => place _ _ _
    | float => exact bind (leaf .float span source) fun _ => place _ _ _
    | string => exact bind (leaf .string span source) fun _ => place _ _ _
    | error => exact bind (leaf .error span source) fun _ => place _ _ _

/-- A nest takes tokens by such steps. -/
theorem take (limit : Nat) (source : List UInt8) (nest : Nest) (token : Token) :
    IgnoresLexical (nest.take limit source token) := by
  unfold Nest.take
  split
  · exact throw _
  · exact bind (reserve _ _) fun _ => bind (reserve _ _) fun _ => place _ _ _
  · exact startForm _ _ _ _

/-- A nest takes the end of the input by such a step. -/
theorem finish (limit : Nat) (nest : Nest) (location : Span) :
    IgnoresLexical (nest.finish limit location) := by
  unfold Nest.finish
  split
  · exact throw _
  · exact bind (reserve _ _) fun _ => pure _
  · exact throw _
  · split
    · exact throw _
    · exact throw _

end IgnoresLexical

/-- Lexical findings are made without a trace outside the lexical part of the workspace. -/
theorem report_of_lexical {findings : List Finding} (workspace : Workspace)
    (lexical : ∀ finding ∈ findings, finding.cause.isLexical = true) :
    ∃ reported, report findings workspace = .ok () reported ∧
      reported.quiet = workspace.quiet ∧ reported.lexical = workspace.lexical ++ findings := by
  obtain ⟨all, none_left⟩ := Finding.filter_of_isLexical lexical
  refine ⟨_, rfl, ?_, ?_⟩
  · simp [Workspace.quiet, none_left]
  · simp [Workspace.lexical, all]

end Build

/-! ## Driving a nest -/

namespace TokenFeed

/-- Every finding of a scanner is lexical. -/
theorem isLexical_of_mem_cut {position : Nat} {input : List UInt8} {reported : ReportedToken}
    (member : reported ∈ Scanner.cut position input) :
    ∀ finding ∈ reported.findings, finding.cause.isLexical = true := by
  intro finding found
  cases Scanner.arises_of_mem_cut member with
  | ending => cases found
  | token => cases found
  | malformed skipped length cause same =>
    have sound := Piece.sound_leading (input.drop skipped)
    rw [same] at sound
    rw [List.mem_singleton.mp found]
    exact sound

/-- Every finding that a feed has still to make is lexical. -/
theorem isLexical_of_mem_findings {feed : TokenFeed} {finding : Finding}
    (member : finding ∈ feed.findings) : finding.cause.isLexical = true := by
  obtain ⟨reported, scanned, found⟩ := List.mem_flatMap.mp member
  unfold Scanner.upcoming at scanned
  split at scanned
  · exact isLexical_of_mem_cut scanned finding found
  all_goals cases scanned

/-- Where a feed hands out nothing, the end of the source stands in. -/
theorem drive_of_none {limit : Nat} {source : List UInt8} {feed : TokenFeed} {nest : Nest}
    (nothing : feed.next.token = none) :
    feed.drive limit source nest = (do
      Build.report feed.next.findings
      nest.finish limit (Token.endOfInput source.length).span) := by
  rw [drive]
  split
  · rfl
  · rename_i token handed
    rw [nothing] at handed
    cases handed

/-- A feed reports what it found while it looked for a token, and brings the token to the nest. -/
theorem drive_of_some {limit : Nat} {source : List UInt8} {feed : TokenFeed} {nest : Nest}
    {token : Token} (handed : feed.next.token = some token) :
    feed.drive limit source nest = (do
      Build.report feed.next.findings
      if token.kind = .endOfInput then nest.finish limit token.span
      else do
        let nest ← nest.take limit source token
        feed.next.feed.drive limit source nest) := by
  rw [drive]
  split
  · rename_i nothing
    rw [handed] at nothing
    cases nothing
  · rename_i other same
    rw [handed] at same
    cases same
    rfl

/-- A feed without tokens brings the end of the input to the nest. -/
theorem drive_of_nil {limit : Nat} {source : List UInt8} {feed : TokenFeed} {nest : Nest}
    (slots : 0 < feed.window.capacity) (left : feed.tokens = []) (workspace : Workspace) :
    feed.drive limit source nest workspace =
      nest.run limit source [] { workspace with findings := workspace.findings ++ [] } := by
  obtain ⟨nothing, found⟩ := next_of_nil slots left
  rw [drive_of_none nothing, found]
  rfl

/-- A feed reports what it found while it looked for its first token, and brings that token to the
nest. -/
theorem drive_of_cons {limit : Nat} {source : List UInt8} {feed : TokenFeed} {nest : Nest}
    {token : Token} {rest : List Token} (slots : 0 < feed.window.capacity)
    (left : feed.tokens = token :: rest) :
    feed.drive limit source nest = (do
      Build.report feed.next.findings
      if token.kind = .endOfInput then nest.finish limit token.span
      else do
        let nest ← nest.take limit source token
        feed.next.feed.drive limit source nest) :=
  drive_of_some (next_of_tokens slots left).1

/-- Driving the tokens of a feed through a nest is running the nest on them, but for the findings of
the scanner. -/
theorem run_quiet_eq_hush_drive (limit : Nat) (source : List UInt8) (feed : TokenFeed)
    (slots : 0 < feed.window.capacity) (nest : Nest) (workspace : Workspace) :
    nest.run limit source feed.tokens workspace.quiet =
      Build.hush (feed.drive limit source nest workspace) := by
  induction left : feed.tokens generalizing feed nest workspace with
  | nil =>
    rw [drive_of_nil slots left, List.append_nil]
    exact (Build.IgnoresLexical.finish _ _ _ _).1
  | cons token rest ih =>
    obtain ⟨-, others, found, capacity⟩ := next_of_tokens slots left
    obtain ⟨reported, ran, same, -⟩ := Build.report_of_lexical workspace
      fun finding member => isLexical_of_mem_findings (found ▸ List.mem_append_left _ member)
    rw [drive_of_cons slots left, Build.bind_of_ok ran, Nest.run, ← same]
    split
    · exact (Build.IgnoresLexical.finish _ _ _ _).1
    · obtain ⟨took, -⟩ := Build.IgnoresLexical.take limit source nest token reported
      cases taken : nest.take limit source token reported with
      | ok after between =>
        rw [taken] at took
        rw [Build.bind_of_ok took, Build.bind_of_ok taken]
        exact ih feed.next.feed (capacity ▸ slots) after between others
      | error problem between =>
        rw [taken] at took
        rw [Build.bind_of_error took, Build.bind_of_error taken]
        rfl

/-- When a nest has taken every token of a source, every finding of its scanner has been made. -/
theorem lexical_drive {limit : Nat} {source : List UInt8} {front : List Token} {final : Token}
    (inner : ∀ token ∈ front, token.kind ≠ .endOfInput) (last : final.kind = .endOfInput)
    {feed : TokenFeed} (slots : 0 < feed.window.capacity) (left : feed.tokens = front ++ [final])
    {nest : Nest} {workspace done : Workspace} {forms : List Form}
    (complete : feed.drive limit source nest workspace = .ok forms done) :
    done.lexical = workspace.lexical ++ feed.findings := by
  induction front generalizing feed nest workspace with
  | nil =>
    obtain ⟨-, others, found, capacity⟩ := next_of_tokens slots left
    have nothing : feed.next.feed.findings = [] := by
      simp only [tokens, List.append_eq_nil_iff, List.map_eq_nil_iff] at others
      simp [findings, others.2]
    rw [nothing, List.append_nil] at found
    obtain ⟨reported, ran, -, lexical⟩ := Build.report_of_lexical workspace
      fun finding (member : finding ∈ feed.next.findings) =>
        isLexical_of_mem_findings (found ▸ member)
    rw [drive_of_cons slots left, if_pos last, Build.bind_of_ok ran] at complete
    obtain ⟨-, kept⟩ := Build.IgnoresLexical.finish limit nest final.span reported
    rw [complete] at kept
    rw [← found, ← lexical]
    exact kept
  | cons token front ih =>
    obtain ⟨-, others, found, capacity⟩ := next_of_tokens slots left
    obtain ⟨reported, ran, -, lexical⟩ := Build.report_of_lexical workspace
      fun finding member => isLexical_of_mem_findings (found ▸ List.mem_append_left _ member)
    rw [drive_of_cons slots left, Build.bind_of_ok ran,
      if_neg (inner token List.mem_cons_self)] at complete
    obtain ⟨-, kept⟩ := Build.IgnoresLexical.take limit source nest token reported
    cases taken : nest.take limit source token reported with
    | error problem between =>
      rw [Build.bind_of_error taken] at complete
      cases complete
    | ok after between =>
      rw [Build.bind_of_ok taken] at complete
      rw [taken] at kept
      have rest := ih (fun token member => inner token (List.mem_cons_of_mem _ member))
        (capacity ▸ slots) others complete
      rw [rest, ← found, ← List.append_assoc, ← lexical]
      exact congrArg (· ++ _) kept

end TokenFeed

end LispReader
