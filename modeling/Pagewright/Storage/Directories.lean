/-
Directories that are made together with what they stand in.

* `makeDirectories` — makes a directory and those above it that are missing; one that is there is
  no error.  The path is tried first, then what is above it, until one can be made or is there;
  after that those inside it are made one by one.
-/
import Pagewright.Storage.FileSystem
import Pagewright.Storage.Path

namespace Pagewright

variable {m : Type → Type} [Monad m] [FileSystem m]

/-- Makes the first of some directories, which go from the innermost to the outermost, that can be
made or is there; yields those inside it, the outermost first. -/
def makeOutermost (inside : List String) : List String → m (Except StorageError (List String))
  | [] => return .ok inside
  | path :: outer => do
    if path.isEmpty then return .ok inside
    else
      match ← FileSystem.makeDirectory path with
      | .ok () => return .ok inside
      | .error .notFound => makeOutermost (path :: inside) outer
      | .error refusal =>
        if refusal == .alreadyExists && (← FileSystem.isDirectory path) then return .ok inside
        else return .error refusal

/-- Makes directories, each of which may be there. -/
def makeEach : List String → m (Except StorageError Unit)
  | [] => return .ok ()
  | path :: paths => do
    match ← FileSystem.makeDirectory path with
    | .ok () => makeEach paths
    | .error refusal =>
      if refusal == .alreadyExists && (← FileSystem.isDirectory path) then makeEach paths
      else return .error refusal

/-- Makes a directory and the missing ones above it. -/
def makeDirectories (path : String) : m (Except StorageError Unit) := do
  match ← makeOutermost [] (Path.ancestors path) with
  | .ok inside => makeEach inside
  | .error refusal => return .error refusal

end Pagewright
