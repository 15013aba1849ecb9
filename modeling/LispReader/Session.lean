import LispReader.Nest
import LispReader.Settings
import LispReader.TokenFeed

/-!
# Sessions

A session carries what the reads of one compilation share: settings, the names interned so far, and
the diagnostics reported and not yet taken. Reading a source drives its tokens through a nest, one
window of tokens at a time. Whatever the result, the session keeps the names and is told the
findings, those of the scanner up to the end of the last window included.
-/

namespace LispReader

/-- What the reads of one compilation share. -/
structure Session where
  settings : Settings
  symbols : SymbolTable
  diagnostics : List Diagnostic

/-- The result of a read, with the session and the arena after it. -/
structure Reading where
  result : Except ReadError Tree
  session : Session
  arena : Arena

namespace TokenFeed

/-- Drives the tokens of a feed through a nest up to the end of the input. Once a feed has nothing
more to hand out, the end of the source stands in. -/
def drive (limit : Nat) (source : List UInt8) (feed : TokenFeed) (nest : Nest) :
    Build (List Form) := do
  let delivery := feed.next
  Build.report delivery.findings
  match _ : delivery.token with
  | none => nest.finish limit (Token.endOfInput source.length).span
  | some token =>
    if token.kind = .endOfInput then nest.finish limit token.span
    else
      let nest ← nest.take limit source token
      delivery.feed.drive limit source nest
  termination_by feed.pending
  decreasing_by exact pending_next (by assumption)

end TokenFeed

namespace Session

/-- A session that has read nothing. -/
def create (settings : Settings) : Session := ⟨settings, .empty, []⟩

/-- Adds diagnostics after those already reported. -/
def report (session : Session) (diagnostics : List Diagnostic) : Session :=
  { session with diagnostics := session.diagnostics ++ diagnostics }

/-- Takes every diagnostic reported so far and leaves none. -/
def takeDiagnostics (session : Session) : List Diagnostic × Session :=
  (session.diagnostics, { session with diagnostics := [] })

/-- Whether a diagnostic of the highest severity is waiting. -/
def hasErrors (session : Session) : Bool := Diagnostic.anyError session.diagnostics

/-- The symbol of a name, and the session that knows it. -/
def intern (session : Session) (name : String) : Symbol × Session :=
  let (symbol, symbols) := session.symbols.intern name
  (symbol, { session with symbols := symbols })

/-- The name of a symbol, if the session knows it. -/
def resolve? (session : Session) (symbol : Symbol) : Option String :=
  session.symbols.resolve? symbol

/-- The storage for one batch of tokens, which has at least one slot. -/
def batchWindow (session : Session) : Window Token :=
  .ofStorage (Array.replicate (max session.settings.tokenBatch.toNat 1) .blank)

/-- What a read leaves behind once it has stopped: the session knows the names and the findings. -/
def conclude (session : Session) (result : Except ReadError Tree) (workspace : Workspace) :
    Reading :=
  let session := { session with symbols := workspace.symbols }
  ⟨result, session.report (workspace.findings.map Finding.diagnostic), workspace.arena⟩

/-- Reads every top-level form of a source into an arena. -/
def read (session : Session) (arena : Arena) (source : List UInt8) : Reading :=
  if Scanner.sourceLimit ≤ source.length then
    ⟨.error (.sourceTooLarge source.length), session, arena⟩
  else
    let feed := TokenFeed.start (.start source) session.batchWindow
    match feed.drive session.settings.depthLimit source .empty ⟨arena, session.symbols, []⟩ with
    | .ok forms workspace => session.conclude (.ok ⟨forms⟩) workspace
    | .error problem workspace => session.conclude (.error problem) workspace

/-- A session as a record that leaves out what it has collected. -/
def inspect (session : Session) (holders : Nat) : String :=
  "Session \x7b " ++ Text.field "holders" (toString holders) ++ ", " ++
    Text.field "config" session.settings.inspect ++ ", .. \x7d"

end Session

end LispReader
