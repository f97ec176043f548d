import MetricFormula.Storage.Files

/-!
# File trees

Files as a value: a tree of directories and files, in which paths are looked up segment by segment
from the root or from a working directory. It offers the file operations as a state.
-/

namespace MetricFormula

/-- What is at a place of a file tree. -/
inductive FileEntry
  /-- A directory. -/
  | directory
  /-- A file with its bytes. -/
  | file (bytes : ByteArray)

/-- A place in a file tree: the names on the way from the root. -/
abbrev Location := List (List Char)

/-- A tree of files, with a working directory. -/
structure FileTree where
  /-- What is at each place below the root; of several entries the first one counts. -/
  entries : List (Location × FileEntry)
  /-- The place from which relative paths are looked up. -/
  workingDirectory : Location

namespace FileTree

/-- What is at a place; the root is a directory. -/
def entry? (tree : FileTree) (location : Location) : Option FileEntry :=
  if location.isEmpty then some .directory else tree.entries.lookup location

/-- The tree with an entry put at a place. -/
def put (tree : FileTree) (location : Location) (entry : FileEntry) : FileTree :=
  { tree with entries := (location, entry) :: tree.entries }

/-- The place that segments lead to from a directory. All but the last name have to be those of
directories. -/
def follow (tree : FileTree) (directory : Location) :
    List (List Char) → Except FileError Location
  | [] => .ok directory
  | segment :: rest =>
    if Path.isIdle segment then tree.follow directory rest
    else if segment = ['.', '.'] then tree.follow directory.dropLast rest
    else if 255 < (String.ofList segment).utf8ByteSize then .error .nameTooLong
    else
      let next := directory ++ [segment]
      if rest.isEmpty then .ok next
      else match tree.entry? next with
        | some .directory => tree.follow next rest
        | some (.file _) => .error .notDirectory
        | none => .error .notFound

/-- The place that a path leads to. -/
def locate (tree : FileTree) (path : List Char) : Except FileError Location :=
  if path.isEmpty then .error .notFound
  else if path.contains (Char.ofNat 0) then .error .nullCharacter
  else if 4096 ≤ (String.ofList path).utf8ByteSize then .error .nameTooLong
  else
    let start := if path.head? = some '/' then [] else tree.workingDirectory
    tree.follow start (Path.segments path)

/-- A path without the slashes at its end. -/
def withoutFinalSlashes (path : List Char) : List Char :=
  match (path.reverse.dropWhile (· == '/')).reverse with
  | [] => path
  | shorter => shorter

/-- What a path leads to. -/
def find? (tree : FileTree) (path : String) : Option FileEntry :=
  match tree.locate path.toList with
  | .ok location => tree.entry? location
  | .error _ => none

/-- The bytes of a file. -/
def read (tree : FileTree) (path : String) : Except FileError ByteArray := do
  match tree.entry? (← tree.locate path.toList) with
  | some (.file bytes) => return bytes
  | some .directory => throw .isDirectory
  | none => throw .notFound

/-- The tree with a file made or replaced. -/
def write (tree : FileTree) (path : String) (bytes : ByteArray) : Except FileError FileTree := do
  let location ← tree.locate (withoutFinalSlashes path.toList)
  if path.toList.getLast? = some '/' then throw .isDirectory
  match tree.entry? location with
  | some .directory => throw .isDirectory
  | _ => return tree.put location (.file bytes)

/-- The tree with a directory made. -/
def makeDirectory (tree : FileTree) (path : String) : Except FileError FileTree := do
  let location ← tree.locate (withoutFinalSlashes path.toList)
  match tree.entry? location with
  | some _ => throw .alreadyExists
  | none => return tree.put location .directory

/-- Take the changed tree if an operation succeeds. -/
def update (change : FileTree → Except FileError FileTree) :
    StateM FileTree (Except FileError Unit) := fun tree =>
  match change tree with
  | .ok changed => (.ok (), changed)
  | .error error => (.error error, tree)

instance : MonadFiles (StateM FileTree) where
  isPresent path := do return ((← get).find? path).isSome
  isDirectory path := do
    match (← get).find? path with
    | some .directory => return true
    | _ => return false
  readFile path := do return (← get).read path
  writeFile path bytes := update (·.write path bytes)
  makeDirectory path := update (·.makeDirectory path)

end FileTree

end MetricFormula
