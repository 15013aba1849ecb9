import LispReader.Proofs.Interning

/-!
# What a session has been through

Whatever is done with a session is an event in its history: a name is interned, diagnostics are
reported or taken, a source is read. A session accounts for its history at any time. The diagnostics
that were taken and those that wait are those that were handed to it, each once and in their order,
and its table lists the names that were asked for, each once and in the order in which they came
first, so that what a symbol stands for never changes.
-/

namespace LispReader

namespace SymbolTable

/-- Interning names forgets none. -/
theorem extends_internAll (table : SymbolTable) (names : List String) :
    (table.internAll names).Extends table := by
  induction names generalizing table with
  | nil => exact .refl table
  | cons name rest ih => exact (ih (table.intern name).2).trans (table.extends_intern name)

end SymbolTable

/-- A symbol stands for its name as more names become known. -/
theorem Form.Named.of_extends {table later : SymbolTable} {source : List UInt8} {form : Form}
    (named : form.Named table source) (more : later.Extends table) : form.Named later source := by
  cases form with
  | symbol span handle =>
    obtain ⟨name, text, known⟩ := named
    exact ⟨name, text, more handle name known⟩
  | list | quote | integer | float | string | error => trivial

namespace Session

/-! ## Events -/

/-- What can be done with a session. -/
inductive Act where
  | intern (name : String)
  | report (diagnostics : List Diagnostic)
  | takeDiagnostics
  | read (arena : Arena) (source : List UInt8)

/-- What was done with a session and what came of it. Of a read that is its result, the tokens that
it made into forms, and what it found. -/
inductive Event where
  | interned (name : String) (symbol : Symbol)
  | reported (diagnostics : List Diagnostic)
  | taken (diagnostics : List Diagnostic)
  | read (source : List UInt8) (result : Except ReadError Tree) (converted : List Token)
    (found : List Finding)

namespace Event

/-- The diagnostics that an event hands to the session. -/
def handed : Event → List Diagnostic
  | .reported diagnostics => diagnostics
  | .read _ _ _ found => found.map Finding.diagnostic
  | .interned _ _ | .taken _ => []

/-- The diagnostics that an event takes from the session. -/
def removed : Event → List Diagnostic
  | .taken diagnostics => diagnostics
  | .interned _ _ | .reported _ | .read _ _ _ _ => []

/-- The names that an event asks for, in order. -/
def requested : Event → List String
  | .interned name _ => [name]
  | .read source _ converted _ => Token.namesAll source converted
  | .reported _ | .taken _ => []

end Event

/-- What a read finds before it stops, the scanner's findings included. -/
def found (session : Session) (arena : Arena) (source : List UInt8) : List Finding :=
  if Scanner.sourceLimit ≤ source.length then []
  else (Build.after ((TokenFeed.start (.start source) session.batchWindow).drive
    session.settings.depthLimit source .empty ⟨arena, session.symbols, []⟩)).findings

/-- Whatever comes of a read, what it finds is reported after what waits already. -/
theorem diagnostics_read (session : Session) (arena : Arena) (source : List UInt8) :
    (session.read arena source).session.diagnostics =
      session.diagnostics ++ (session.found arena source).map Finding.diagnostic := by
  unfold read found
  split
  · exact (List.append_nil _).symm
  · cases drove : (TokenFeed.start (.start source) session.batchWindow).drive
        session.settings.depthLimit source .empty ⟨arena, session.symbols, []⟩ with
    | ok forms done =>
      simp only [drove]
      rfl
    | error problem stopped =>
      simp only [drove]
      rfl

/-- Does something with a session. -/
def perform (session : Session) : Act → Event × Session
  | .intern name =>
    let (symbol, session) := session.intern name
    (.interned name symbol, session)
  | .report diagnostics => (.reported diagnostics, session.report diagnostics)
  | .takeDiagnostics =>
    let (diagnostics, session) := session.takeDiagnostics
    (.taken diagnostics, session)
  | .read arena source =>
    let reading := session.read arena source
    (.read source reading.result (session.converted arena source) (session.found arena source),
      reading.session)

/-! ## Accounts -/

/-- A session that has been through the events of a history, the first event first. -/
structure AccountsFor (session : Session) (history : List Event) : Prop where
  diagnostics : history.flatMap Event.removed ++ session.diagnostics =
    history.flatMap Event.handed
  names : session.symbols.names = (history.flatMap Event.requested).eraseDups
  interned : ∀ name symbol, .interned name symbol ∈ history →
    session.symbols.resolve? symbol = some name
  named : ∀ source tree converted found, .read source (.ok tree) converted found ∈ history →
    ∀ form ∈ tree.walk, form.Named session.symbols source

/-- A new session has been through nothing. -/
theorem accountsFor_create (settings : Settings) : (create settings).AccountsFor [] where
  diagnostics := rfl
  names := rfl
  interned _ _ member := absurd member List.not_mem_nil
  named _ _ _ _ member := absurd member List.not_mem_nil

/-- What is done with a session interns the names that are asked for. -/
theorem symbols_perform (session : Session) (act : Act) :
    (session.perform act).2.symbols =
      session.symbols.internAll (session.perform act).1.requested := by
  cases act with
  | intern name => rfl
  | report diagnostics => rfl
  | takeDiagnostics => rfl
  | read arena source => exact symbols_read session arena source

/-- What is done with a session neither loses nor repeats a diagnostic. -/
theorem diagnostics_perform (session : Session) (act : Act) :
    (session.perform act).1.removed ++ (session.perform act).2.diagnostics =
      session.diagnostics ++ (session.perform act).1.handed := by
  cases act with
  | intern name => exact (List.append_nil _).symm
  | report diagnostics => rfl
  | takeDiagnostics => rfl
  | read arena source => exact diagnostics_read session arena source

/-- Whatever is done with a session, it accounts for that too. -/
theorem AccountsFor.perform {session : Session} {history : List Event}
    (accounts : session.AccountsFor history) (act : Act) :
    (session.perform act).2.AccountsFor (history ++ [(session.perform act).1]) := by
  have symbols := symbols_perform session act
  have more : (session.perform act).2.symbols.Extends session.symbols := by
    rw [symbols]
    exact session.symbols.extends_internAll _
  refine ⟨?_, ?_, fun name symbol member => ?_,
    fun source tree converted found member form inside => ?_⟩
  · rw [List.flatMap_append, List.flatMap_append, List.flatMap_singleton, List.flatMap_singleton,
      List.append_assoc, diagnostics_perform, ← List.append_assoc, accounts.diagnostics]
  · rw [symbols, List.flatMap_append, List.flatMap_singleton]
    exact SymbolTable.names_internAll accounts.names _
  · rcases List.mem_append.mp member with earlier | last
    · exact more _ _ (accounts.interned name symbol earlier)
    · cases act with
      | intern other =>
        cases List.mem_singleton.mp last
        exact session.symbols.resolve?_intern name
      | report | takeDiagnostics | read => cases List.mem_singleton.mp last
  · rcases List.mem_append.mp member with earlier | last
    · exact (accounts.named source tree converted found earlier form inside).of_extends more
    · cases act with
      | read arena other =>
        have same := List.mem_singleton.mp last
        simp only [Session.perform, Event.read.injEq] at same
        obtain ⟨rfl, succeeds, -, -⟩ := same
        exact named_of_read succeeds.symm form inside
      | intern | report | takeDiagnostics => cases List.mem_singleton.mp last

/-- What a symbol stands for stays so as a history goes on. -/
theorem AccountsFor.extends {session later : Session} {history more : List Event}
    (accounts : session.AccountsFor history) (accounts' : later.AccountsFor (history ++ more)) :
    later.symbols.Extends session.symbols := by
  intro symbol name known
  simp only [SymbolTable.resolve?] at known ⊢
  obtain ⟨bound, -⟩ := List.getElem?_eq_some_iff.mp known
  rw [accounts'.names, List.flatMap_append, List.eraseDups_append, ← accounts.names,
    List.getElem?_append_left bound, known]

/-- Symbols that were read through a session are the same exactly if they are written with the same
bytes. -/
theorem AccountsFor.symbol_eq_iff {session : Session} {history : List Event}
    (accounts : session.AccountsFor history) {source source' : List UInt8} {tree tree' : Tree}
    {converted converted' : List Token} {found found' : List Finding}
    (first : .read source (.ok tree) converted found ∈ history)
    (second : .read source' (.ok tree') converted' found' ∈ history) {span span' : Span}
    {symbol symbol' : Symbol} (member : .symbol span symbol ∈ tree.walk)
    (member' : .symbol span' symbol' ∈ tree'.walk) :
    symbol = symbol' ↔ span.slice source = span'.slice source' := by
  obtain ⟨name, text, known⟩ := accounts.named _ _ _ _ first _ member
  obtain ⟨name', text', known'⟩ := accounts.named _ _ _ _ second _ member'
  constructor
  · rintro rfl
    cases known.symm.trans known'
    rw [← Text.ofBytes?_eq_some.mp text, ← Text.ofBytes?_eq_some.mp text']
  · intro same
    rw [same] at text
    cases text.symm.trans text'
    have number := SymbolTable.intern_of_resolve? known
    rw [SymbolTable.intern_of_resolve? known'] at number
    exact (congrArg Prod.fst number).symm

end Session

end LispReader
