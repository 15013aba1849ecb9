import LispReader.CommandLine

/-!
# The program

The outer layer of the command line: it reads standard input and the environment, and writes what
the run gives. A run that breaks off gives nothing but an exit code of its own.
-/

namespace LispReader

/-- The variables that a run looks up, with their values where they are set. -/
def readEnvironment : IO (List (String × Option String)) :=
  [Setting.arenaCapacity, Setting.tokenBatch, Setting.maxDepth].mapM fun setting => do
    return (setting.variableName, ← IO.getEnv setting.variableName)

end LispReader

/-- Reads a source from standard input and shows what was made of it. -/
def main : IO UInt32 := do
  let settings ← LispReader.readEnvironment
  let environment (name : String) : Option String := (settings.lookup name).join
  let source ← (← IO.getStdin).readBinToEnd
  let some output := LispReader.CommandLine.run environment source.data.toList
    | return 101
  let stdout ← IO.getStdout
  stdout.write ⟨output.stdout.toArray⟩
  stdout.flush
  let stderr ← IO.getStderr
  stderr.putStr output.stderr
  stderr.flush
  return output.exitCode
