import LispReader.Proofs.RegistryHistory

/-!
# Numbers of names

A session numbers the names that it is asked for in the order in which they come first, whether
they are interned one by one or read, and through whichever of its handles. A number once given
stands for its name as long as the session lives, so symbols of different reads can be compared.
A read, even one that fails, adds the new names among the atoms that it converts and no others.
-/

namespace LispReader

namespace SymbolTable

/-- Interning adds the new names, each once and in the order in which they came first. -/
theorem names_internAll_eq_append (table : SymbolTable) (names : List String) :
    (table.internAll names).names = table.names ++ (names.removeAll table.names).eraseDups := by
  have lists : table.names = table.names.eraseDups := (eraseDups_of_nodup table.nodup).symm
  rw [names_internAll lists, List.eraseDups_append, ← lists]

end SymbolTable

namespace Registry

/-- What is written down stays so, whatever else is asked. -/
theorem exists_histories_foldl {state : Chronicle × Registry} {key : Nat}
    {history : List Session.Event} (written : state.1.histories[key]? = some history)
    (later : List Request) :
    ∃ more, (later.foldl follow state).1.histories[key]? = some (history ++ more) := by
  induction later generalizing state history with
  | nil => exact ⟨[], by rw [List.foldl_nil, written, List.append_nil]⟩
  | cons request later ih =>
    obtain ⟨first, entered⟩ :=
      Chronicle.exists_histories_enter written request (state.2.serve request).1
    obtain ⟨rest, kept⟩ := @ih (follow state request) _ entered
    exact ⟨first ++ rest, by rw [List.foldl_cons, kept, List.append_assoc]⟩

/-- What a symbol stands for in a session stays so, whatever else is asked. -/
theorem extends_run_append {requests : List Request} {handle handle' key : Nat}
    {session session' : Session} (later : List Request)
    (owner : (run requests).1.owner? handle = some key)
    (found : (run requests).2.session? handle = some session)
    (owner' : (run (requests ++ later)).1.owner? handle' = some key)
    (found' : (run (requests ++ later)).2.session? handle' = some session') :
    session'.symbols.Extends session.symbols := by
  obtain ⟨history, _, written, live, kept, accounts, -⟩ := (accountsFor_run requests).live owner
  obtain ⟨history', _, written', live', kept', accounts', -⟩ :=
    (accountsFor_run (requests ++ later)).live owner'
  rw [session?, shared?_of_kept live kept] at found
  rw [session?, shared?_of_kept live' kept'] at found'
  cases found
  cases found'
  obtain ⟨more, goes_on⟩ := exists_histories_foldl written later
  rw [run, List.foldl_append, ← run] at written'
  cases goes_on.symm.trans written'
  exact accounts.extends accounts'

/-- A session numbers its names exactly. Through a live handle, number n resolves to the n-th of the
distinct names that the session was asked for so far, and no other number resolves. Through any
handle on the session it does so ever after. A name that was interned is what its symbol resolves
to, and symbols that were read, once or in different reads, are the same exactly if they are
written with the same bytes. A read adds the new names among those of the atoms that it converts:
all tokens before the end if it succeeds, and if it fails, those taken before the token that is
refused and that one too, unless it is the end or lies too deep. -/
theorem run_numbers_names (requests : List Request) {handle key : Nat}
    (owner : (run requests).1.owner? handle = some key) :
    ∃ history session, (run requests).1.histories[key]? = some history ∧
      (run requests).2.session? handle = some session ∧
      let names := (history.flatMap Session.Event.requested).eraseDups
      session.symbols.size = names.length ∧
      (∀ number, session.resolve? ⟨number⟩ = names[number]?) ∧
      (∀ later handle', (run (requests ++ later)).1.owner? handle' = some key →
        ∃ session', (run (requests ++ later)).2.session? handle' = some session' ∧
          ∀ number, number < names.length → session'.resolve? ⟨number⟩ = names[number]?) ∧
      (∀ name symbol, .interned name symbol ∈ history → session.resolve? symbol = some name) ∧
      (∀ source tree converted found source' tree' converted' found',
        .read source (.ok tree) converted found ∈ history →
        .read source' (.ok tree') converted' found' ∈ history →
        ∀ span symbol span' symbol', .symbol span symbol ∈ tree.walk →
          .symbol span' symbol' ∈ tree'.walk →
          (symbol = symbol' ↔ span.slice source = span'.slice source')) ∧
      ∀ arena source,
        let reading := session.read arena source
        let converted := session.converted arena source
        reading.session.symbols.names =
          names ++ ((Token.namesAll source converted).removeAll names).eraseDups ∧
        (Scanner.sourceLimit ≤ source.length → converted = []) ∧
        (source.length < Scanner.sourceLimit →
          (∀ tree, reading.result = .ok tree →
            converted ++ [.endOfInput source.length] = Scanner.tokens source) ∧
          ∀ problem, reading.result = .error problem →
            session.Stops arena source problem converted) := by
  obtain ⟨history, session, written, live, kept, accounts, -⟩ :=
    (accountsFor_run requests).live owner
  have found : (run requests).2.session? handle = some session := by
    rw [session?, shared?_of_kept live kept, Option.map_some]
  refine ⟨history, session, written, found, ?_⟩
  intro names
  have listed : session.symbols.names = names := accounts.names
  refine ⟨congrArg List.length listed, fun number => ?_, fun later handle' owner' => ?_,
    accounts.interned, ?_, fun arena source => ⟨?_, fun long => if_pos long, fun short =>
      session.converted_of_read arena short⟩⟩
  · rw [← listed]
    rfl
  · obtain ⟨_, session', -, live', kept', -⟩ := (accountsFor_run (requests ++ later)).live owner'
    have found' : (run (requests ++ later)).2.session? handle' = some session' := by
      rw [session?, shared?_of_kept live' kept', Option.map_some]
    refine ⟨session', found', fun number bound => ?_⟩
    have known : session.resolve? ⟨number⟩ = some names[number] := by
      rw [Session.resolve?, SymbolTable.resolve?, listed, List.getElem?_eq_getElem bound]
    rw [List.getElem?_eq_getElem bound]
    exact extends_run_append later owner found owner' found' _ _ known
  · intro source tree converted found source' tree' converted' found' first second span symbol
      span' symbol' member member'
    exact accounts.symbol_eq_iff first second member member'
  · rw [Session.symbols_read, SymbolTable.names_internAll_eq_append, listed]

/-- A name is interned before and another after a read through a second handle. An atom in the list
that is read lies too deep, so it is not among the names. -/
theorem run_numbers_names_too_deep :
    let source : List UInt8 := [Byte.leftParen, 97]
    let arena : Arena := ⟨Arena.blockAddress, 256, 0, by decide, by decide, by decide⟩
    let requests : List Request := [.create ⟨256, 4, 0⟩, .perform 0 (.intern "b"), .acquire 0,
      .perform 1 (.read arena source), .perform 1 (.intern "c")]
    ∃ session, (run requests).2.session? 0 = some session ∧ session.symbols.size = 2 ∧
      session.resolve? ⟨0⟩ = some "b" ∧ session.resolve? ⟨1⟩ = some "c" ∧
      session.resolve? ⟨2⟩ = none := by
  intro source arena requests
  let before : Session := ((Session.create ⟨256, 4, 0⟩).intern "b").2
  have tokens : Scanner.tokens source = [⟨.leftParen, ⟨0, 1⟩⟩, ⟨.atom, ⟨1, 2⟩⟩, .endOfInput 2] := by
    have atom := @Scanner.cut_token .atom [97] [] 1 ⟨rfl, fun _ first => by cases first⟩
    rw [List.append_nil, Scanner.cut_nil] at atom
    rw [Scanner.tokens_eq_cut, Scanner.cut_leftParen, atom]
    rfl
  have converted : before.converted arena source = [⟨.leftParen, ⟨0, 1⟩⟩] := by
    rw [Session.converted, if_neg (by decide), tokens]
    rfl
  obtain ⟨history, session, written, found, size, numbers, -⟩ :=
    @run_numbers_names requests 0 0 rfl
  have events : history = [.interned "b" _, .read source _ (before.converted arena source) _,
      .interned "c" _] := Option.some.inj (written.symm.trans rfl)
  have names : (history.flatMap Session.Event.requested).eraseDups = ["b", "c"] := by
    rw [events, converted]
    rfl
  rw [names] at size numbers
  exact ⟨session, found, size, numbers 0, numbers 1, numbers 2⟩

end Registry

end LispReader
