import MetricFormula.Command.Basic
import MetricFormula.Json.Printer

/-!
# Reports

What a command leaves behind: the text on standard output and, if it fails, an exit status with a
message and a hint.
-/

namespace MetricFormula

open Json (Document)

/-- The failure of a command. -/
structure Failure where
  /-- The exit status. -/
  status : ExitStatus
  /-- What went wrong; nothing if the output says so already. -/
  message : Option String
  /-- How to go on. -/
  hint : Option String := none
deriving DecidableEq, Repr

namespace Failure

/-- A failure with a message. -/
def because (status : ExitStatus) (message : String) : Failure :=
  ⟨status, some message, none⟩

/-- The failure with a hint. -/
def withHint (failure : Failure) (hint : String) : Failure :=
  { failure with hint := some hint }

/-- The lines on standard error. -/
def diagnostics (failure : Failure) : List String :=
  (failure.message.map ("error: " ++ ·)).toList ++ (failure.hint.map ("hint:  " ++ ·)).toList

end Failure

/-- The outcome of a command. -/
structure Report where
  /-- The text on standard output. -/
  output : List Char
  /-- The failure, if the command fails. -/
  failure : Option Failure
deriving DecidableEq, Repr

namespace Report

/-- The exit code. -/
def exitCode (report : Report) : Nat :=
  (report.failure.map (·.status.code)).getD 0

/-- The lines on standard error. -/
def diagnostics (report : Report) : List String :=
  (report.failure.map Failure.diagnostics).getD []

/-- The report of a command that prints only if it succeeds. -/
def ofResult : Except Failure (List Char) → Report
  | .ok output => ⟨output, none⟩
  | .error failure => ⟨[], some failure⟩

end Report

/-- A line of output. -/
def outputLine (text : List Char) : List Char :=
  text ++ ['\n']

/-- A document on standard output, indented if that is chosen. -/
def printDocument (pretty : Bool) (document : Document) : List Char :=
  outputLine (if pretty then document.indented else document.compact)

end MetricFormula
