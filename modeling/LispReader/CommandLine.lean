import LispReader.Form.Render
import LispReader.Position
import LispReader.Session

/-!
# The command line

One run reads a source and shows what was made of it. The forms go to standard output as source
text, and to standard error as records; diagnostics follow on standard error with the line and
column where they start. A run that cannot read the source fails.
-/

namespace LispReader

/-- What a run writes, and its exit code. -/
structure RunOutput where
  exitCode : UInt32
  stdout : List UInt8
  stderr : String

namespace RunOutput

/-- A run that stops before it reads anything. -/
def refusal (message : String) : RunOutput := ⟨1, [], "error: " ++ message ++ "\n"⟩

end RunOutput

namespace CommandLine

/-- A diagnostic on a line of its own, after the place where it starts. -/
def diagnosticLine (lines : LineStarts) (diagnostic : Diagnostic) : Option String := do
  let position ← lines.position diagnostic.span.start
  return position.text ++ ": " ++ diagnostic.severity.name ++ ": " ++ diagnostic.message ++ "\n"

/-- What a finished read writes, unless it breaks off. -/
def present (lines : LineStarts) (reading : Reading) : Option RunOutput := do
  let diagnostics := String.join (← reading.session.diagnostics.mapM (diagnosticLine lines))
  match reading.result with
  | .ok tree =>
    return ⟨0, tree.render reading.session.symbols,
      String.join (tree.forms.map fun form => form.inspect ++ "\n") ++ diagnostics⟩
  | .error problem =>
    return ⟨1, [], (← diagnosticLine lines problem.diagnostic) ++ diagnostics⟩

/-- One run on the given source, with variables looked up in the environment. -/
def run (environment : String → Option String) (source : List UInt8) : Option RunOutput :=
  match Settings.load environment with
  | .error problem => some (.refusal problem.message)
  | .ok settings =>
    match Arena.create settings.arenaCapacity with
    | .error problem => some (.refusal problem.message)
    | .ok arena =>
      present (LineStarts.ofSource source) ((Session.create settings).read arena source)

end CommandLine

end LispReader
