/-
Paths, as they are written.

Nothing is normalised: a path keeps its text, since that text is shown.

* `Path.join` — a path below a directory; an absolute path stands for itself;
* `Path.parent?` — everything but the last name, without the slashes and dots that mean nothing;
* `Path.stem`, `Path.extension?` — the last name before and after its last dot.  A dot at the start
  of a name separates nothing.
-/
namespace Pagewright.Path

/-- Whether a path starts at the root. -/
def isAbsolute (path : String) : Bool :=
  path.toList.head? == some '/'

/-- Whether a path ends in a slash. -/
def endsInSlash (path : String) : Bool :=
  path.toList.getLast? == some '/'

/-- The path of something below a directory. -/
def join (directory path : String) : String :=
  if isAbsolute path then path
  else if directory.isEmpty || endsInSlash directory then directory ++ path
  else directory ++ "/" ++ path

/-- Cuts at every slash. -/
def cut : List Char → List (List Char)
  | [] => [[]]
  | c :: path =>
    if c = '/' then [] :: cut path
    else match cut path with
      | [] => [[c]]
      | name :: names => (c :: name) :: names

/-- The names between the slashes of a path, with `.` and `..` among them. -/
def names (path : String) : List String :=
  ((cut path.toList).filter (!·.isEmpty)).map String.ofList

/-- The names of a path without those that stay in place; a dot in front is kept. -/
def steps (path : String) : List String :=
  match names path with
  | [] => []
  | name :: rest =>
    (if name = "." && isAbsolute path then [] else [name]) ++ rest.filter (· ≠ ".")

/-- Writes names with slashes between them. -/
def ofSteps (absolute : Bool) (steps : List String) : String :=
  (if absolute then "/" else "") ++ "/".intercalate steps

/-- The path without its last name; the root and the empty path have none. -/
def parent? (path : String) : Option String :=
  match steps path with
  | [] => none
  | steps => some (ofSteps (isAbsolute path) steps.dropLast)

/-- A path and the paths above it, from the path upwards. -/
def ancestors (path : String) : List String :=
  let steps := steps path
  path :: (List.range steps.length).reverse.map fun n =>
    ofSteps (isAbsolute path) (steps.take n)

/-- The last name of a path, unless that leads upwards. -/
def fileName? (path : String) : Option String :=
  match (steps path).getLast? with
  | some ".." => none
  | some "." => none
  | name? => name?

/-- The parts of a name before and after its last dot, if there is one after the first
character. -/
def splitExtension (name : List Char) : List Char × Option (List Char) :=
  let extension := (name.reverse.takeWhile (· != '.')).reverse
  let stem := (name.reverse.dropWhile (· != '.')).tail.reverse
  if stem.isEmpty then (name, none) else (stem, some extension)

/-- The last name of a path before its last dot; empty if there is no such name. -/
def stem (path : String) : String :=
  match fileName? path with
  | some name => String.ofList (splitExtension name.toList).1
  | none => ""

/-- The last name of a path after its last dot. -/
def extension? (path : String) : Option String := do
  let name ← fileName? path
  let extension ← (splitExtension name.toList).2
  return String.ofList extension

end Pagewright.Path
