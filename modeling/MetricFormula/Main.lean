import MetricFormula.Command.Interrupted
import MetricFormula.Command.Run

/-!
# The program

Reads the arguments, the environment and standard input, runs the command on the files of the
system, and prints its report. Everything that is decided is decided by the commands.
-/

namespace MetricFormula

/-- The reason for which an operation of the system fails. -/
def FileError.ofSystemError : IO.Error → FileError
  | .noFileOrDirectory .. => .notFound
  | .alreadyExists _ code _ => if code = 17 then .alreadyExists else .other s!"(os error {code})"
  | .inappropriateType _ code _ =>
    if code = 20 then .notDirectory
    else if code = 21 then .isDirectory
    else .other s!"(os error {code})"
  | .permissionDenied _ code _ => .other s!"Permission denied (os error {code})"
  | error => .other (toString error)

/-- Carry out an operation of the system. -/
def attemptFile {α : Type} (action : IO α) : IO (Except FileError α) := do
  try return .ok (← action)
  catch error => return .error (.ofSystemError error)

/-- A path can be opened. -/
def canOpen (path : String) : IO Bool := do
  try
    let _ ← IO.FS.Handle.mk ⟨path⟩ .read
    return true
  catch _ => return false

instance : MonadFiles IO where
  isPresent path := canOpen path
  isDirectory path := canOpen (Path.append path ".")
  readFile path := attemptFile (IO.FS.readBinFile ⟨path⟩)
  writeFile path bytes := attemptFile (IO.FS.writeBinFile ⟨path⟩ bytes)
  makeDirectory path := attemptFile (IO.FS.createDir ⟨path⟩)

/-- The variables of the environment that matter. -/
def Environment.get : IO Environment := do
  return ⟨← IO.getEnv "KPIFORM_CONFIG", ← IO.getEnv "XDG_CONFIG_HOME", ← IO.getEnv "HOME"⟩

/-- Run the program with the given arguments. -/
def runProgram (arguments : List String) : IO Report := do
  let environment ← Environment.get
  match Invocation.ofArguments environment arguments with
  | .error interruption => return interruption.report
  | .ok invocation =>
    let input ←
      if invocation.command.readsInput then (← IO.getStdin).readBinToEnd else pure ByteArray.empty
    invocation.run environment input

end MetricFormula

/-- Print the report of the program and exit with its code. -/
def main (arguments : List String) : IO UInt32 := do
  let report ← MetricFormula.runProgram arguments
  IO.print (String.ofList report.output)
  for line in report.diagnostics do
    IO.eprintln line
  return report.exitCode.toUInt32
