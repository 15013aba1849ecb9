import LispReader.Span

/-!
# Diagnostics

A diagnostic is a message about a span of the source with a severity. Collections of diagnostics
are lists in the order of reporting, and severities are ordered from note to error.
-/

namespace LispReader

/-- How serious a diagnostic is. -/
inductive Severity where
  | note
  | warning
  | error
  deriving DecidableEq, Inhabited

namespace Severity

/-- The word printed for a severity. -/
def name : Severity → String
  | .note => "note"
  | .warning => "warning"
  | .error => "error"

/-- The place of a severity in the order from mild to serious. -/
def rank : Severity → Nat
  | .note => 0
  | .warning => 1
  | .error => 2

/-- The more serious of two severities. -/
def worse (first second : Severity) : Severity :=
  if first.rank ≤ second.rank then second else first

end Severity

/-- A message about a span of the source. -/
structure Diagnostic where
  severity : Severity
  span : Span
  message : String
  deriving DecidableEq, Inhabited

namespace Diagnostic

/-- A diagnostic of the highest severity. -/
def error (span : Span) (message : String) : Diagnostic := ⟨.error, span, message⟩

/-- Whether a collection holds a diagnostic of the highest severity. -/
def anyError (diagnostics : List Diagnostic) : Bool :=
  diagnostics.any fun diagnostic => diagnostic.severity = .error

/-- The highest severity in a collection, if it holds anything. -/
def worst? : List Diagnostic → Option Severity
  | [] => none
  | first :: rest =>
    match worst? rest with
    | none => some first.severity
    | some severity => some (first.severity.worse severity)

@[simp] theorem anyError_nil : anyError [] = false := rfl

/-- A joined collection holds an error exactly when one of its parts does. -/
@[simp] theorem anyError_append (first second : List Diagnostic) :
    anyError (first ++ second) = (anyError first || anyError second) := by
  simp [anyError]

end Diagnostic

end LispReader
