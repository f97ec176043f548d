import MetricFormula.Storage.Path

/-!
# Files

The file operations that commands use, over any monad that offers them, and the reasons for which
the operating system refuses one.
-/

namespace MetricFormula

/-- Why a file operation fails. -/
inductive FileError
  /-- Nothing is there. -/
  | notFound
  /-- Something is there already. -/
  | alreadyExists
  /-- A file stands where a directory is needed. -/
  | notDirectory
  /-- A directory stands where a file is needed. -/
  | isDirectory
  /-- A name is longer than file systems allow. -/
  | nameTooLong
  /-- A name holds a null character. -/
  | nullCharacter
  /-- The bytes are not UTF-8. -/
  | invalidText
  /-- Another reason, in words. -/
  | other (reason : String)
deriving DecidableEq, Repr

namespace FileError

/-- The message of the error. -/
def message : FileError → String
  | notFound => "No such file or directory (os error 2)"
  | alreadyExists => "File exists (os error 17)"
  | notDirectory => "Not a directory (os error 20)"
  | isDirectory => "Is a directory (os error 21)"
  | nameTooLong => "File name too long (os error 36)"
  | nullCharacter => "file name contained an unexpected NUL byte"
  | invalidText => "stream did not contain valid UTF-8"
  | other reason => reason

end FileError

/-- A monad with files. -/
class MonadFiles (m : Type → Type) where
  /-- A file or directory is at the path. -/
  isPresent : String → m Bool
  /-- A directory is at the path. -/
  isDirectory : String → m Bool
  /-- The bytes of a file. -/
  readFile : String → m (Except FileError ByteArray)
  /-- Make a file with the given bytes, or replace what it holds. -/
  writeFile : String → ByteArray → m (Except FileError Unit)
  /-- Make a directory in an existing one. -/
  makeDirectory : String → m (Except FileError Unit)

namespace MonadFiles

variable {m : Type → Type} [Monad m] [MonadFiles m]

/-- The text of a file. -/
def readText (path : String) : m (Except FileError String) := do
  match ← readFile path with
  | .error error => return .error error
  | .ok bytes =>
    match String.fromUTF8? bytes with
    | some text => return .ok text
    | none => return .error .invalidText

/-- Make a file with the given text, or replace what it holds. -/
def writeText (path : String) (text : List Char) : m (Except FileError Unit) :=
  writeFile path (String.ofList text).toUTF8

/-- A refusal to make a directory is no failure if the directory is there. -/
def unlessDirectory (path : String) : Except FileError Unit → m (Except FileError Unit)
  | .error .alreadyExists => do
    return if ← isDirectory path then .ok () else .error .alreadyExists
  | result => return result

/-- Make the first of the given directories, each of which is in the next one; if that one is
missing, make it first. -/
def makeFirst : List String → m (Except FileError Unit)
  | [] => return .ok ()
  | path :: above => do
    match ← makeDirectory path with
    | .error .notFound =>
      match ← makeFirst above with
      | .error error => return .error error
      | .ok () => unlessDirectory path (← makeDirectory path)
    | result => unlessDirectory path result

/-- Make a directory and those above it, as far as they are missing. -/
def makeDirectories (path : String) : m (Except FileError Unit) :=
  makeFirst (Path.ancestors path)

end MonadFiles

end MetricFormula
