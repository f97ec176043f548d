/-!
# Paths

A path is a text whose segments are separated by slashes. Empty segments count for nothing, and
neither does a single dot, except as the first segment of a relative path.
-/

namespace MetricFormula.Path

/-- The segments of a path, empty ones included. -/
def segments : List Char → List (List Char)
  | [] => [[]]
  | c :: rest =>
    if c = '/' then [] :: segments rest
    else match segments rest with
      | [] => [[c]]
      | segment :: others => (c :: segment) :: others

/-- Segments joined by slashes. -/
def join : List (List Char) → List Char
  | [] => []
  | [segment] => segment
  | segment :: next :: others => segment ++ '/' :: join (next :: others)

/-- The path begins at the root. -/
def isAbsolute (path : String) : Bool :=
  path.toList.head? = some '/'

/-- Put a name at the end of a path, behind a slash. -/
def append (path name : String) : String :=
  if path.isEmpty || path.toList.getLast? = some '/' then path ++ name else path ++ "/" ++ name

/-- A segment counts for nothing. -/
def isIdle (segment : List Char) : Bool :=
  segment.isEmpty || segment == ['.']

/-- Reversed segments from the last one on that counts. -/
def dropIdle (reversed : List (List Char)) : List (List Char) :=
  reversed.dropWhile isIdle

/-- The segments before the last one that counts; nothing if none counts. In a relative path the
first segment counts even if it is a dot. -/
def parentSegments? (absolute : Bool) (all : List (List Char)) : Option (List (List Char)) :=
  match absolute, all with
  | false, ['.'] :: others =>
    match dropIdle others.reverse with
    | [] => some []
    | _ :: above => some (['.'] :: (dropIdle above).reverse)
  | _, _ =>
    match dropIdle all.reverse with
    | [] => none
    | _ :: above => some (dropIdle above).reverse

/-- The path of the directory that a path is in; nothing for the root and for the empty path. -/
def parent? (path : String) : Option String :=
  match path.toList with
  | '/' :: rest => (parentSegments? true (segments rest)).map fun s => String.ofList ('/' :: join s)
  | text => (parentSegments? false (segments text)).map fun s => String.ofList (join s)

/-- The path and the directories above it, at most `count` of them, from the path itself upward up
to below the root or the working directory. -/
def ancestorsUpTo : Nat → String → List String
  | 0, _ => []
  | count + 1, path =>
    match parent? path with
    | none => []
    | some parent => path :: ancestorsUpTo count parent

/-- The path and the directories above it, from the path itself upward up to below the root or the
working directory. -/
def ancestors (path : String) : List String :=
  ancestorsUpTo path.length path

end MetricFormula.Path
