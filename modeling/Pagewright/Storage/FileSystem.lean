/-
What a program asks of the files around it.

* `FileSystem` — the operations, for any monad that provides them;
* `StorageError.message` — how a refusal is worded.
-/
namespace Pagewright

/-- Why an operation on files is refused. -/
inductive StorageError
  | notFound
  | alreadyExists
  | notDirectory
  | isDirectory
  | nameTooLong
  | nulInName
  | notText
  | other (message : String)
  deriving DecidableEq, Repr

/-- The wording of a refusal. -/
def StorageError.message : StorageError → String
  | .notFound => "No such file or directory (os error 2)"
  | .alreadyExists => "File exists (os error 17)"
  | .notDirectory => "Not a directory (os error 20)"
  | .isDirectory => "Is a directory (os error 21)"
  | .nameTooLong => "File name too long (os error 36)"
  | .nulInName => "file name contained an unexpected NUL byte"
  | .notText => "stream did not contain valid UTF-8"
  | .other message => message

/-- What a path may lead to. -/
inductive EntryKind
  | file
  | directory
  deriving DecidableEq, Repr

/-- Operations on files and directories, by path. -/
class FileSystem (m : Type → Type) where
  /-- What a path leads to, if to anything. -/
  kind? : (path : String) → m (Option EntryKind)
  /-- The content of a file. -/
  read : (path : String) → m (Except StorageError ByteArray)
  /-- The names in a directory, in no particular order. -/
  list : (path : String) → m (Except StorageError (List String))
  /-- Makes a directory whose parent exists. -/
  makeDirectory : (path : String) → m (Except StorageError Unit)
  /-- Writes a new file with a name of its own into a directory; yields its path. -/
  stage : (directory : String) → (content : ByteArray) → m (Except StorageError String)
  /-- Moves a file over the file at another path, if there is one. -/
  rename : (path target : String) → m (Except StorageError Unit)
  /-- Replaces the content of a file, or makes the file. -/
  write : (path : String) → (content : ByteArray) → m (Except StorageError Unit)
  /-- Removes a file. -/
  remove : (path : String) → m (Except StorageError Unit)
  /-- The path from the root to what a path leads to. -/
  canonical : (path : String) → m (Except StorageError String)
  /-- The directory that relative paths start from. -/
  workingDirectory : m (Except StorageError String)

namespace FileSystem

variable {m : Type → Type} [Monad m] [FileSystem m]

/-- Whether a path leads to anything. -/
def pathExists (path : String) : m Bool := do
  return (← kind? path).isSome

/-- Whether a path leads to a directory. -/
def isDirectory (path : String) : m Bool := do
  return (← kind? path) == some .directory

/-- Whether a path leads to a file. -/
def isFile (path : String) : m Bool := do
  return (← kind? path) == some .file

end FileSystem

end Pagewright
