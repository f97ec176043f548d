import MetricFormula.Json.Printer
import MetricFormula.Settings
import MetricFormula.Storage.Files

/-!
# Settings files

Loading settings from a file, saving them to one, and making a file that documents the defaults.
Loading never fails: a file that is missing or unusable stands for the defaults.
-/

namespace MetricFormula

/-- Why a settings file is not written. -/
inductive SettingsFileError
  /-- Something is at the path, and it is not to be replaced. -/
  | alreadyExists (path : String)
  /-- The directory of the file cannot be made. -/
  | creating (directory : String) (error : FileError)
  /-- The file cannot be written. -/
  | writing (path : String) (error : FileError)
  /-- The settings cannot be saved. -/
  | saving (error : FileError)
deriving DecidableEq, Repr

namespace SettingsFileError

/-- The message of the error. -/
def message : SettingsFileError → String
  | alreadyExists path => s!"{path} already exists"
  | creating directory error => s!"creating {directory}: {error.message}"
  | writing path error => s!"writing {path}: {error.message}"
  | saving error => error.message

end SettingsFileError

namespace Settings

open MonadFiles

variable {m : Type → Type} [Monad m] [MonadFiles m]

/-- The settings that a file holds, or the defaults. -/
def load (path : String) : m Settings := do
  if ← isPresent path then
    match ← readText path with
    | .ok text => return (parse? text.toList).getD {}
    | .error _ => return {}
  else return {}

/-- Make the directory of a file, as far as it is missing. -/
def makeParent (path : String) : m (Except FileError Unit) :=
  match Path.parent? path with
  | some parent => makeDirectories parent
  | none => return .ok ()

/-- Save settings to a file. -/
def save (settings : Settings) (path : String) : m (Except SettingsFileError Unit) := do
  match ← makeParent path with
  | .error error => return .error (.saving error)
  | .ok () => return (← writeText path settings.toDocument.indented).mapError .saving

/-- Make a file that documents the defaults; a file that is there is only replaced by force. -/
def createDefault (path : String) (force : Bool) : m (Except SettingsFileError Unit) := do
  if (← isPresent path) && !force then return .error (.alreadyExists path)
  else match ← makeParent path with
    | .error error => return .error (.creating ((Path.parent? path).getD "") error)
    | .ok () => return (← writeText path defaultText.toList).mapError (.writing path)

end Settings

end MetricFormula
