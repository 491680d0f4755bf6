/-
A file system held in memory, without links or permissions.

* `Disk.find` — follows a path from name to name, as far as it leads;
* the instance `FileSystem DiskM` — the operations on such a file system.

Places are lists of names from the root.  A name has at most 255 bytes and a path at most 4095.
-/
import Pagewright.OrderedMap
import Pagewright.Storage.FileSystem
import Pagewright.Storage.Path

namespace Pagewright

/-- What stands at a place of a disk. -/
inductive DiskEntry
  | file (content : ByteArray)
  | directory

/-- The kind of an entry. -/
def DiskEntry.kind : DiskEntry → EntryKind
  | .file _ => .file
  | .directory => .directory

/-- The names from the root of a disk to a place on it. -/
abbrev Place := List String

/-- Entries by place, and the place that relative paths start from.  The root is always there. -/
structure Disk where
  entries : List (Place × DiskEntry) := []
  start : Place := []

/-- How a place is written. -/
def Place.path (place : Place) : String :=
  "/" ++ "/".intercalate place

/-- Where a path leads to: to an entry, or to a name that is free in a directory. -/
inductive Destination
  | entry (place : Place) (entry : DiskEntry)
  | free (place : Place)

namespace Disk

/-- The greatest number of bytes in a name. -/
def nameLimit : Nat := 255

/-- The greatest number of bytes in a path. -/
def pathLimit : Nat := 4095

/-- What stands at a place. -/
def entryAt (disk : Disk) (place : Place) : Option DiskEntry :=
  if place.isEmpty then some .directory else disk.entries.lookup place

/-- The disk with an entry at a place. -/
def put (disk : Disk) (place : Place) (entry : DiskEntry) : Disk :=
  { disk with entries := putEntry place entry disk.entries }

/-- The disk without the entry at a place. -/
def erase (disk : Disk) (place : Place) : Disk :=
  { disk with entries := disk.entries.filter (·.1 ≠ place) }

/-- The names in a directory. -/
def namesIn (disk : Disk) (place : Place) : List String :=
  disk.entries.filterMap fun (inner, _) =>
    if inner.dropLast = place then inner.getLast? else none

/-- Follows names from a directory.  Only the last one may be free. -/
def follow (disk : Disk) (place : Place) : List String → Except StorageError Destination
  | [] => .ok (.entry place .directory)
  | name :: names =>
    if name = "." then follow disk place names
    else if name = ".." then follow disk place.dropLast names
    else if name.utf8ByteSize > nameLimit then .error .nameTooLong
    else
      let inner := place ++ [name]
      match disk.entryAt inner with
      | some .directory => follow disk inner names
      | some entry => if names.isEmpty then .ok (.entry inner entry) else .error .notDirectory
      | none => if names.isEmpty then .ok (.free inner) else .error .notFound

/-- Where a path leads to. -/
def find (disk : Disk) (path : String) : Except StorageError Destination :=
  if path.isEmpty then .error .notFound
  else if path.toList.contains '\x00' then .error .nulInName
  else if path.utf8ByteSize > pathLimit then .error .nameTooLong
  else follow disk (if Path.isAbsolute path then [] else disk.start) (Path.names path)

/-- The entry that a path leads to; a slash at the end asks for a directory. -/
def findEntry (disk : Disk) (path : String) : Except StorageError (Place × DiskEntry) := do
  match ← disk.find path with
  | .free _ => .error .notFound
  | .entry place (.file content) =>
    if Path.endsInSlash path then .error .notDirectory else .ok (place, .file content)
  | .entry place .directory => .ok (place, .directory)

/-- The content of a file. -/
def read (disk : Disk) (path : String) : Except StorageError ByteArray := do
  match ← disk.findEntry path with
  | (_, .file content) => .ok content
  | (_, .directory) => .error .isDirectory

/-- The names in the directory that a path leads to. -/
def list (disk : Disk) (path : String) : Except StorageError (List String) := do
  match ← disk.findEntry path with
  | (_, .file _) => .error .notDirectory
  | (place, .directory) => .ok (disk.namesIn place)

/-- The disk with one more directory. -/
def makeDirectory (disk : Disk) (path : String) : Except StorageError Disk := do
  match ← disk.find path with
  | .entry _ _ => .error .alreadyExists
  | .free place => .ok (disk.put place .directory)

/-- The disk with the content of a file replaced, or with one more file. -/
def write (disk : Disk) (path : String) (content : ByteArray) : Except StorageError Disk := do
  match ← disk.find path with
  | .entry _ .directory => .error .isDirectory
  | .entry place (.file _) =>
    if Path.endsInSlash path then .error .notDirectory else .ok (disk.put place (.file content))
  | .free place =>
    if Path.endsInSlash path then .error .isDirectory else .ok (disk.put place (.file content))

/-- The disk without a file. -/
def remove (disk : Disk) (path : String) : Except StorageError Disk := do
  match ← disk.findEntry path with
  | (_, .directory) => .error .isDirectory
  | (place, .file _) => .ok (disk.erase place)

/-- The disk with a file moved. -/
def rename (disk : Disk) (path target : String) : Except StorageError Disk := do
  match ← disk.findEntry path with
  | (_, .directory) => .error .isDirectory
  | (place, .file content) => (disk.erase place).write target content

/-- The names that new files are given: ten characters, unless there are very many of them. -/
def temporaryName (number : Nat) : String :=
  ".tmp" ++ toString (100000 + number)

/-- A name that is free among some others. -/
def freshName (names : List String) : String :=
  (((List.range names.length).map temporaryName).find? (!names.contains ·)).getD
    (temporaryName names.length)

/-- The last names of all places on a disk. -/
def lastNames (disk : Disk) : List String :=
  disk.entries.filterMap (·.1.getLast?)

/-- The path from the root to a new file in a directory. -/
def stagingPath (disk : Disk) (directory : String) : String :=
  Path.join (Path.join disk.start.path directory) (freshName disk.lastNames)

/-- The disk with a new file in a directory, and the path of that file. -/
def stage (disk : Disk) (directory : String) (content : ByteArray) :
    Except StorageError (String × Disk) := do
  match ← disk.find (disk.stagingPath directory) with
  | .entry _ _ => .error .alreadyExists
  | .free place => .ok (disk.stagingPath directory, disk.put place (.file content))

end Disk

/-- Programs that work on a disk. -/
abbrev DiskM := StateM Disk

namespace DiskM

/-- Asks a question about the disk. -/
def ask (question : Disk → α) : DiskM α := fun disk => (question disk, disk)

/-- Changes the disk, unless the change is refused. -/
def change (step : Disk → Except StorageError Disk) : DiskM (Except StorageError Unit) :=
  fun disk => match step disk with
    | .ok disk => (.ok (), disk)
    | .error refusal => (.error refusal, disk)

instance : FileSystem DiskM where
  kind? path := ask fun disk => (disk.findEntry path).toOption.map (·.2.kind)
  read path := ask (·.read path)
  list path := ask (·.list path)
  makeDirectory path := change (·.makeDirectory path)
  stage directory content := fun disk =>
    match disk.stage directory content with
    | .ok (path, disk) => (.ok path, disk)
    | .error refusal => (.error refusal, disk)
  rename path target := change (·.rename path target)
  write path content := change (·.write path content)
  remove path := change (·.remove path)
  canonical path := ask fun disk => (disk.findEntry path).map (·.1.path)
  workingDirectory := ask fun disk => .ok disk.start.path

end DiskM

end Pagewright
