import LispReader.Proofs.Acceptance
import LispReader.Proofs.Echo

/-!
# What a read interns

A read interns the names of the atoms that it makes forms of, in the order of the source. An atom
is interned before its form is paid for, so it counts even if the arena stops the read there, while
one that lies too deep is refused before it is looked at. Nothing comes after the token that stops
the read, although the scanner may be further on. Names that are known already are not numbered
anew, so the table lists the distinct names in the order in which they came first.
-/

namespace LispReader

/-! ## Names interned one after the other -/

namespace SymbolTable

/-- Names that are there once each are left as they are when duplicates are erased. -/
theorem eraseDups_of_nodup {names : List String} (distinct : names.Nodup) :
    names.eraseDups = names := by
  induction names with
  | nil => rfl
  | cons name rest ih =>
    rw [List.nodup_cons] at distinct
    have others : rest.filter (fun other => !other == name) = rest := by
      apply List.filter_eq_self.mpr
      intro other member
      have different : other ≠ name := fun same => distinct.1 (same ▸ member)
      simp [different]
    rw [List.eraseDups_cons, others, ih distinct.2]

/-- The table after names are interned one after the other. -/
def internAll (table : SymbolTable) (names : List String) : SymbolTable :=
  names.foldl (fun table name => (table.intern name).2) table

/-- No name leaves a table as it is. -/
@[simp] theorem internAll_nil (table : SymbolTable) : table.internAll [] = table := rfl

/-- Names are interned after those in front of them. -/
theorem internAll_append (table : SymbolTable) (first second : List String) :
    table.internAll (first ++ second) = (table.internAll first).internAll second :=
  List.foldl_append

/-- A table lists the distinct names interned so far, in the order in which they came first, and
goes on to do so. -/
theorem names_intern {table : SymbolTable} {earlier : List String}
    (lists : table.names = earlier.eraseDups) (name : String) :
    (table.intern name).2.names = (earlier ++ [name]).eraseDups := by
  have same : name ∈ table.names ↔ name ∈ earlier := by rw [lists, List.mem_eraseDups]
  rw [List.eraseDups_append, intern]
  by_cases known : name ∈ table.names
  · have nothing : [name].removeAll earlier = [] := by simp [List.removeAll, same.mp known]
    rw [dif_pos known, nothing, List.eraseDups_nil, List.append_nil, lists]
  · have new : [name].removeAll earlier = [name] := by
      simp [List.removeAll, mt same.mpr known]
    rw [dif_neg known, new]
    exact congrArg (· ++ [name]) lists

/-- A table to which names are interned lists the distinct names in the order in which they came
first. -/
theorem names_internAll {table : SymbolTable} {earlier : List String}
    (lists : table.names = earlier.eraseDups) (names : List String) :
    (table.internAll names).names = (earlier ++ names).eraseDups := by
  induction names generalizing table earlier with
  | nil => rw [List.append_nil, internAll_nil, lists]
  | cons name rest ih =>
    rw [← List.singleton_append, ← List.append_assoc, internAll_append]
    exact ih (names_intern lists name)

end SymbolTable

namespace Token

/-- The name that a token asks to intern: its text if it is an atom and its bytes are text. -/
def names (source : List UInt8) (token : Token) : List String :=
  if token.kind = .atom then (Text.ofBytes? (token.lexeme source)).toList else []

/-- The names that tokens ask to intern, in order. -/
def namesAll (source : List UInt8) (tokens : List Token) : List String :=
  tokens.flatMap (names source)

/-- Why a token has no value, found when a form is made of it. -/
def refusals (source : List UInt8) (token : Token) : List Finding :=
  match token.kind with
  | .atom =>
    match Text.ofBytes? (token.lexeme source) with
    | some _ => []
    | none => [⟨.symbolNotUtf8, token.span⟩]
  | .integer =>
    match Numeral.readInt64? (token.lexeme source) with
    | some _ => []
    | none => [⟨.integerOutOfRange, token.span⟩]
  | .float =>
    match Binary64.read? (token.lexeme source) with
    | some _ => []
    | none => [⟨.floatNotDecimal, token.span⟩]
  | .leftParen | .rightParen | .quote | .string | .endOfInput | .error => []

end Token

/-! ## Steps that intern and find -/

/-- Whether a fault is that a form lies too deep. -/
def ReadError.isTooDeep : ReadError → Bool
  | .tooDeep _ _ => true
  | .unbalanced _ | .unclosed _ | .unexpectedEnd _ | .empty | .sourceTooLarge _ | .arena _ => false

namespace Build

variable {α β : Type}

/-- A step that interns names whatever comes of it, and does not find that a form lies too deep. -/
def Interns (step : Build α) (names : List String) : Prop :=
  ∀ workspace, (after (step workspace)).symbols = workspace.symbols.internAll names ∧
    ∀ problem stopped, step workspace = .error problem stopped → problem.isTooDeep = false

/-- A step that adds findings to those made before, whatever comes of it. -/
def Finds (step : Build α) (findings : List Finding) : Prop :=
  ∀ workspace, (after (step workspace)).findings = workspace.findings ++ findings

/-- A step that interns names and adds findings, whatever comes of it. -/
structure Does (step : Build α) (names : List String) (findings : List Finding) : Prop where
  interns : Interns step names
  finds : Finds step findings

namespace Does

/-- Doing nothing interns and finds nothing. -/
theorem pure (value : α) : Does (Pure.pure value) [] [] :=
  ⟨fun _ => ⟨rfl, fun _ _ failed => nomatch failed⟩, fun _ => (List.append_nil _).symm⟩

/-- Failing interns and finds nothing. -/
theorem throw {problem : ReadError} (other : problem.isTooDeep = false) :
    Does (MonadExcept.throw problem : Build α) [] [] := by
  refine ⟨fun _ => ⟨rfl, fun problem' stopped failed => ?_⟩, fun _ => (List.append_nil _).symm⟩
  cases failed
  exact other

/-- What a step interns and finds stays so, whatever comes of a next one that does neither. -/
theorem bind {first : Build α} {second : α → Build β} {names : List String}
    {findings : List Finding} (does : Does first names findings)
    (nothing : ∀ value, Does (second value) [] []) : Does (first >>= second) names findings := by
  constructor
  · intro workspace
    obtain ⟨symbols, stops⟩ := does.interns workspace
    cases ran : first workspace with
    | ok value between =>
      rw [ran] at symbols
      rw [bind_of_ok ran]
      obtain ⟨symbols', stops'⟩ := (nothing value).interns between
      exact ⟨symbols'.trans symbols, stops'⟩
    | error problem stopped =>
      rw [ran] at symbols
      rw [bind_of_error ran]
      refine ⟨symbols, fun problem' stopped' failed => ?_⟩
      cases failed
      exact stops _ _ ran
  · intro workspace
    have found := does.finds workspace
    cases ran : first workspace with
    | ok value between =>
      rw [ran] at found
      rw [bind_of_ok ran, (nothing value).finds between, List.append_nil]
      exact found
    | error problem stopped =>
      rw [ran] at found
      rw [bind_of_error ran]
      exact found

/-- Paying interns and finds nothing. -/
theorem reserve (size align : UInt64) : Does (reserve size align) [] [] := by
  constructor
  · intro workspace
    simp only [Build.reserve]
    cases workspace.arena.allocate size align with
    | ok granted => exact (pure ()).interns _
    | error full => exact (@throw Unit (.arena full) rfl).interns workspace
  · intro workspace
    simp only [Build.reserve]
    cases workspace.arena.allocate size align with
    | ok granted => exact (pure ()).finds _
    | error full => exact (@throw Unit (.arena full) rfl).finds workspace

/-- Interning a name finds nothing. -/
theorem intern (name : String) : Does (intern name) [name] [] :=
  ⟨fun _ => ⟨rfl, fun _ _ failed => nomatch failed⟩, fun _ => (List.append_nil _).symm⟩

/-- A token without a value is found to have none, and no name is interned. -/
theorem refuse (cause : Cause) (span : Span) : Does (refuse cause span) [] [⟨cause, span⟩] :=
  ⟨fun _ => ⟨rfl, fun _ _ failed => nomatch failed⟩, fun _ => rfl⟩

/-- The name of an atom is interned if its bytes are text, and a leaf without a value is found to
have none. -/
theorem content (kind : LeafKind) (span : Span) (source : List UInt8) :
    Does (content kind span (span.slice source)) (Token.names source ⟨kind.tokenKind, span⟩)
      (Token.refusals source ⟨kind.tokenKind, span⟩) := by
  cases kind with
  | atom =>
    simp only [Build.content, atom, LeafKind.tokenKind, Token.names, if_pos, Token.refusals,
      Token.lexeme]
    cases Text.ofBytes? (span.slice source) with
    | none => exact refuse _ _
    | some name => exact bind (intern _) fun _ => pure _
  | integer =>
    simp only [Build.content, integer, LeafKind.tokenKind, Token.refusals, Token.lexeme]
    cases Numeral.readInt64? (span.slice source) with
    | none => exact refuse _ _
    | some value => exact pure _
  | float =>
    simp only [Build.content, float, LeafKind.tokenKind, Token.refusals, Token.lexeme]
    cases Binary64.read? (span.slice source) with
    | none => exact refuse _ _
    | some value => exact pure _
  | string => exact bind (reserve _ _) fun _ => pure _
  | error => exact pure _

/-- A leaf is paid for after its contents have been read. -/
theorem leaf (kind : LeafKind) (span : Span) (source : List UInt8) :
    Does (leaf ⟨kind.tokenKind, span⟩ source) (Token.names source ⟨kind.tokenKind, span⟩)
      (Token.refusals source ⟨kind.tokenKind, span⟩) := by
  rw [leaf_eq]
  exact bind (content kind span source) fun _ => bind (reserve _ _) fun _ => pure _

/-- Putting a form in its place interns and finds nothing. -/
theorem place (form : Form) (frames : List Frame) (forms : List Form) :
    Does (Nest.place form frames forms) [] [] := by
  induction frames generalizing form with
  | nil => exact pure _
  | cons frame outer ih =>
    cases frame with
    | list opening items => exact pure _
    | quote mark => exact bind (reserve _ _) fun _ => ih _

/-- A token with which a form starts is made into a form, unless it lies too deep. -/
theorem startForm {limit : Nat} {nest : Nest} (source : List UInt8) (token : Token)
    (shallow : ¬ limit < nest.depth) :
    Does (nest.startForm limit source token) (token.names source) (token.refusals source) := by
  obtain ⟨kind, span⟩ := token
  rw [Nest.startForm, if_neg shallow]
  cases kind with
  | leftParen | quote => exact pure _
  | rightParen | endOfInput => exact throw rfl
  | atom => exact bind (leaf .atom span source) fun _ => place _ _ _
  | integer => exact bind (leaf .integer span source) fun _ => place _ _ _
  | float => exact bind (leaf .float span source) fun _ => place _ _ _
  | string => exact bind (leaf .string span source) fun _ => place _ _ _
  | error => exact bind (leaf .error span source) fun _ => place _ _ _

/-- A token lies too deep and is refused, or its name is interned if it is an atom and it is found
to have no value if that is so. -/
theorem take (limit : Nat) (source : List UInt8) (nest : Nest) (token : Token) :
    nest.take limit source token = MonadExcept.throw (.tooDeep token.span limit) ∨
      Does (nest.take limit source token) (token.names source) (token.refusals source) := by
  have starts : nest.startForm limit source token =
      MonadExcept.throw (.tooDeep token.span limit) ∨
      Does (nest.startForm limit source token) (token.names source) (token.refusals source) := by
    by_cases deep : limit < nest.depth
    · exact .inl (if_pos deep)
    · exact .inr (startForm source token deep)
  obtain ⟨kind, span⟩ := token
  by_cases right : kind = .rightParen
  · subst right
    obtain ⟨frames, forms⟩ := nest
    rcases frames with _ | ⟨⟨opening, items⟩ | mark, outer⟩
    · exact .inr (throw rfl)
    · exact .inr (bind (reserve _ _) fun _ => bind (reserve _ _) fun _ => place _ _ _)
    · exact starts
  · rw [Nest.take_of_ne right]
    exact starts

end Does

end Build

/-! ## Runs -/

namespace Nest

/-- Takes tokens one by one. -/
def takes (limit : Nat) (source : List UInt8) (nest : Nest) (tokens : List Token) : Build Nest :=
  tokens.foldlM (fun nest token => nest.take limit source token) nest

/-- The tokens that are made into forms, or into parts of them, until one of them stops this. That
one counts too, unless it lies too deep. -/
def converted (limit : Nat) (source : List UInt8) (nest : Nest) (workspace : Workspace) :
    List Token → List Token
  | [] => []
  | token :: rest =>
    match nest.take limit source token workspace with
    | .ok nest workspace => token :: nest.converted limit source workspace rest
    | .error problem _ => if problem.isTooDeep then [] else [token]

/-- The end of the input interns and finds nothing. -/
theorem after_finish (limit : Nat) (nest : Nest) (location : Span) (workspace : Workspace) :
    (Build.after (nest.finish limit location workspace)).symbols = workspace.symbols ∧
      (Build.after (nest.finish limit location workspace)).findings = workspace.findings := by
  obtain ⟨frames, forms⟩ := nest
  rcases frames with _ | ⟨⟨opening, items⟩ | mark, outer⟩
  · cases forms with
    | nil => exact ⟨rfl, rfl⟩
    | cons form rest =>
      have does : Build.Does (finish limit ⟨[], form :: rest⟩ location) [] [] :=
        .bind (.reserve _ _) fun _ => .pure _
      exact ⟨(does.interns workspace).1, (does.finds workspace).trans (List.append_nil _)⟩
  · exact ⟨rfl, rfl⟩
  · rw [finish]
    split
    · exact ⟨rfl, rfl⟩
    · exact ⟨rfl, rfl⟩

/-- A run interns the names of the tokens that it converts. -/
theorem symbols_run {limit : Nat} {source : List UInt8} {front : List Token} {final : Token}
    (inner : ∀ token ∈ front, token.kind ≠ .endOfInput) (last : final.kind = .endOfInput)
    (nest : Nest) (workspace : Workspace) :
    (Build.after (nest.run limit source (front ++ [final]) workspace)).symbols =
      workspace.symbols.internAll
        (Token.namesAll source (nest.converted limit source workspace front)) := by
  induction front generalizing nest workspace with
  | nil =>
    rw [List.nil_append, run, if_pos last]
    exact (after_finish _ _ _ _).1
  | cons token front ih =>
    rw [List.forall_mem_cons] at inner
    rw [List.cons_append, run, if_neg inner.1, converted]
    rcases Build.Does.take limit source nest token with deep | does
    · rw [deep]
      rfl
    · obtain ⟨symbols, stops⟩ := does.interns workspace
      cases took : nest.take limit source token workspace with
      | ok between after =>
        rw [took] at symbols
        rw [Build.bind_of_ok took, ih inner.2]
        have known : after.symbols = _ := symbols
        simp only [Token.namesAll, List.flatMap_cons, SymbolTable.internAll_append, known]
      | error problem stopped =>
        rw [took] at symbols
        rw [Build.bind_of_error took]
        simp only [stops _ _ took, Bool.false_eq_true, if_false, Token.namesAll,
          List.flatMap_singleton]
        exact symbols

/-- How far a nest comes with tokens: it takes all of them, or one stops it after those before it.
Then that is how the run ends. -/
theorem takes_or_stops {limit : Nat} {source : List UInt8} {front : List Token} {final : Token}
    (inner : ∀ token ∈ front, token.kind ≠ .endOfInput) (last : final.kind = .endOfInput)
    (nest : Nest) (workspace : Workspace) :
    (∃ nest' workspace', nest.takes limit source front workspace = .ok nest' workspace' ∧
      nest.converted limit source workspace front = front ∧
      nest.run limit source (front ++ [final]) workspace =
        nest'.finish limit final.span workspace') ∨
    ∃ before token rest nest' workspace' problem stopped, front = before ++ token :: rest ∧
      nest.takes limit source before workspace = .ok nest' workspace' ∧
      nest'.take limit source token workspace' = .error problem stopped ∧
      nest.converted limit source workspace front =
        before ++ (if problem.isTooDeep then [] else [token]) ∧
      nest.run limit source (front ++ [final]) workspace = .error problem stopped := by
  induction front generalizing nest workspace with
  | nil => exact .inl ⟨nest, workspace, rfl, rfl, by rw [List.nil_append, run, if_pos last]⟩
  | cons token front ih =>
    rw [List.forall_mem_cons] at inner
    rw [List.cons_append, run, if_neg inner.1, converted]
    cases took : nest.take limit source token workspace with
    | error problem stopped =>
      exact .inr ⟨[], token, front, nest, workspace, problem, stopped, rfl, rfl, took, rfl,
        Build.bind_of_error took _⟩
    | ok between after =>
      have goes_on (tokens : List Token) :
          nest.takes limit source (token :: tokens) workspace =
            between.takes limit source tokens after := Build.bind_of_ok took _
      rw [Build.bind_of_ok took, goes_on]
      rcases ih inner.2 between after with ⟨nest', workspace', taken, all, ends⟩ |
        ⟨before, stopper, rest, nest', workspace', problem, stopped, rfl, taken, failed, some, ends⟩
      · exact .inl ⟨nest', workspace', taken, congrArg (List.cons token) all, ends⟩
      · exact .inr ⟨token :: before, stopper, rest, nest', workspace', problem, stopped, rfl,
          (goes_on before).trans taken, failed, congrArg (List.cons token) some, ends⟩

end Nest

/-! ## Reads -/

namespace Session

/-- The tokens of a source that a read makes into forms, or into parts of them, before it stops. -/
def converted (session : Session) (arena : Arena) (source : List UInt8) : List Token :=
  if Scanner.sourceLimit ≤ source.length then []
  else Nest.empty.converted session.settings.depthLimit source ⟨arena, session.symbols, []⟩
    (Scanner.tokens source).dropLast

/-- A read interns the names of the tokens that it converts. -/
theorem symbols_read (session : Session) (arena : Arena) (source : List UInt8) :
    (session.read arena source).session.symbols =
      session.symbols.internAll (Token.namesAll source (session.converted arena source)) := by
  unfold converted
  split
  · rename_i long
    rw [read_of_long session arena long]
    rfl
  · rename_i short
    obtain ⟨front, listed, inner⟩ := Scanner.tokens_eq_append_endOfInput source
    rw [(session.read_follows arena (Nat.lt_of_not_le short)).symbols, listed,
      List.dropLast_concat]
    exact Nest.symbols_run inner rfl _ _

/-- How a read stops at a problem, with the tokens that it has converted by then. The tokens of the
source are taken up to the one that is refused, and this is the end of the source, or lies too deep,
or counts as converted. -/
inductive Stops (session : Session) (arena : Arena) (source : List UInt8) :
    ReadError → List Token → Prop where
  | atEnd {before : List Token} {last : Token} {nest : Nest} {workspace stopped : Workspace}
      {problem : ReadError} (listed : Scanner.tokens source = before ++ [last])
      (taken : Nest.empty.takes session.settings.depthLimit source before
        ⟨arena, session.symbols, []⟩ = .ok nest workspace)
      (refused : nest.finish session.settings.depthLimit last.span workspace =
        .error problem stopped) : Stops session arena source problem before
  | tooDeep {before rest : List Token} {token : Token} {nest : Nest}
      {workspace stopped : Workspace} (listed : Scanner.tokens source = before ++ token :: rest)
      (proper : token.kind ≠ .endOfInput)
      (taken : Nest.empty.takes session.settings.depthLimit source before
        ⟨arena, session.symbols, []⟩ = .ok nest workspace)
      (refused : nest.take session.settings.depthLimit source token workspace =
        .error (.tooDeep token.span session.settings.depthLimit) stopped) :
      Stops session arena source (.tooDeep token.span session.settings.depthLimit) before
  | inside {before rest : List Token} {token : Token} {nest : Nest}
      {workspace stopped : Workspace} {problem : ReadError}
      (listed : Scanner.tokens source = before ++ token :: rest)
      (proper : token.kind ≠ .endOfInput)
      (taken : Nest.empty.takes session.settings.depthLimit source before
        ⟨arena, session.symbols, []⟩ = .ok nest workspace)
      (shallow : problem.isTooDeep = false)
      (refused : nest.take session.settings.depthLimit source token workspace =
        .error problem stopped) : Stops session arena source problem (before ++ [token])

/-- Where a read stops. If it comes to the end, every token before that is converted. If it fails,
it stops at a token. -/
theorem converted_of_read (session : Session) (arena : Arena) {source : List UInt8}
    (short : source.length < Scanner.sourceLimit) :
    (∀ tree, (session.read arena source).result = .ok tree →
      session.converted arena source ++ [.endOfInput source.length] = Scanner.tokens source) ∧
    ∀ problem, (session.read arena source).result = .error problem →
      session.Stops arena source problem (session.converted arena source) := by
  obtain ⟨front, listed, inner⟩ := Scanner.tokens_eq_append_endOfInput source
  have result := (session.read_follows arena short).result
  have counted : session.converted arena source =
      Nest.empty.converted session.settings.depthLimit source ⟨arena, session.symbols, []⟩
        front := by
    rw [converted, if_neg (Nat.not_le_of_lt short), listed, List.dropLast_concat]
  rw [listed] at result
  rw [counted]
  have last : (Token.endOfInput source.length).kind = .endOfInput := rfl
  rcases Nest.takes_or_stops inner last Nest.empty ⟨arena, session.symbols, []⟩ with
    ⟨nest, workspace, taken, all, ends⟩ |
    ⟨before, token, rest, nest, workspace, stop, stopped, rfl, taken, failed, some, ends⟩
  · rw [all]
    refine ⟨fun tree _ => listed.symm, fun problem refused => ?_⟩
    rw [ends] at result
    cases finished : nest.finish session.settings.depthLimit (Token.endOfInput source.length).span
        workspace with
    | ok forms done =>
      rw [finished] at result
      cases refused.symm.trans result
    | error other stopped =>
      rw [finished] at result
      cases refused.symm.trans result
      exact .atEnd listed taken finished
  · rw [some]
    rw [ends] at result
    refine ⟨fun tree succeeds => ?_, fun problem refused => ?_⟩
    · cases succeeds.symm.trans result
    · cases refused.symm.trans result
      have proper := inner token (List.mem_append_right _ List.mem_cons_self)
      rw [List.append_assoc, List.cons_append] at listed
      rcases Build.Does.take session.settings.depthLimit source nest token with deep | does
      · cases (congrFun deep workspace).symm.trans failed
        rw [ReadError.isTooDeep, if_pos rfl, List.append_nil]
        exact .tooDeep listed proper taken failed
      · have shallow := (does.interns workspace).2 _ _ failed
        rw [shallow, if_neg Bool.false_ne_true]
        exact .inside listed proper taken shallow failed

end Session

/-! ## Symbols that were read -/

/-- Whether a form, if it is a symbol, stands for the name that its span covers. -/
def Form.Named (table : SymbolTable) (source : List UInt8) : Form → Prop
  | .symbol span handle => ∃ name, Text.ofBytes? (span.slice source) = some name ∧
      table.resolve? handle = some name
  | .list _ _ | .quote _ _ | .integer _ _ | .float _ _ | .string _ _ | .error _ => True

namespace Phrase

/-- The form of a leaf stands for the name that it covers. -/
theorem named_of_denotes_leaf {table : SymbolTable} {source : List UInt8} {kind : LeafKind}
    {span : Span} {form : Form} (denotes : kind.Denotes table span (span.slice source) form) :
    form.Every (Form.Named table source) := by
  cases kind with
  | atom =>
    simp only [LeafKind.Denotes] at denotes
    cases text : Text.ofBytes? (span.slice source) with
    | none =>
      rw [text] at denotes
      rw [show form = .error span from denotes]
      trivial
    | some name =>
      rw [text] at denotes
      obtain ⟨symbol, rfl, known⟩ := denotes
      exact ⟨name, text, known⟩
  | integer =>
    obtain ⟨number, -, rfl⟩ := denotes
    split <;> trivial
  | float =>
    obtain ⟨number, -, rfl⟩ := denotes
    trivial
  | string | error =>
    obtain rfl := denotes
    trivial

mutual

/-- Every symbol in the form of a phrase stands for the name that its span covers. -/
theorem named_of_denotes {table : SymbolTable} {source : List UInt8} {phrase : Phrase} {form : Form}
    (denotes : phrase.Denotes table source form) : form.Every (Form.Named table source) := by
  match phrase, form with
  | .leaf kind span, form => exact named_of_denotes_leaf denotes
  | .list opening items closing, .list span forms =>
    exact ⟨trivial, named_of_denotesAll denotes.2.2⟩
  | .quote mark quoted, .quote span form => exact ⟨trivial, named_of_denotes denotes.2.2⟩

/-- Every symbol in the forms of phrases stands for the name that its span covers. -/
theorem named_of_denotesAll {table : SymbolTable} {source : List UInt8} {phrases : List Phrase}
    {forms : List Form} (denotes : DenotesAll table source phrases forms) :
    Form.EveryOf (Form.Named table source) forms := by
  match phrases, forms with
  | [], [] => trivial
  | phrase :: phrases, form :: forms =>
    exact ⟨named_of_denotes denotes.1, named_of_denotesAll denotes.2⟩

end

end Phrase

/-- Every symbol that is read stands for the name that its span covers. -/
theorem Session.named_of_read {session : Session} {arena : Arena} {source : List UInt8}
    {tree : Tree} (succeeds : (session.read arena source).result = .ok tree) :
    ∀ form ∈ tree.walk, form.Named (session.read arena source).session.symbols source := by
  obtain ⟨phrases, derives, rfl, gives⟩ := gives_of_read succeeds
  have denoted := Phrase.denotesAll_convertAll phrases session.symbols derives.scanned
  rw [← gives.symbols] at denoted
  exact (Form.forall_mem_walk _).mpr (Phrase.named_of_denotesAll denoted)

end LispReader
