/-
The program: its files are those of the system, its arguments those of the command line.
-/
import Pagewright.CommandLine.Run

namespace Pagewright

/-- What a refusal of the system means. -/
def refusalOf (error : IO.Error) : StorageError :=
  match error with
  | .noFileOrDirectory .. | .noSuchThing .. => .notFound
  | .alreadyExists .. => .alreadyExists
  | .inappropriateType _ 21 _ => .isDirectory
  | .inappropriateType .. => .notDirectory
  | .invalidArgument _ 36 _ | .invalidArgument _ 4294967260 _ => .nameTooLong
  | error => .other (toString error)

/-- Carries out an operation of the system. -/
def attempt (action : IO α) : IO (Except StorageError α) := do
  try return .ok (← action)
  catch error => return .error (refusalOf error)

/-- Refuses paths that the system does not take. -/
def attemptAt (path : String) (action : IO α) : IO (Except StorageError α) :=
  if path.toList.contains '\x00' then return .error .nulInName
  else attempt action

/-- Makes a file with the first free name among `.tmp100000`, `.tmp100001`, …  -/
def stageFrom (directory : String) (content : ByteArray) : (tries number : Nat) → IO String
  | 0, _ => throw (.userError "no free name for a new file")
  | tries + 1, number => do
    let path := Path.join directory (".tmp" ++ toString (100000 + number))
    match ← attempt (IO.FS.Handle.mk path .writeNew) with
    | .ok handle =>
      handle.write content
      handle.flush
      return path
    | .error .alreadyExists => stageFrom directory content tries (number + 1)
    | .error refusal => throw (.userError refusal.message)

instance : FileSystem IO where
  kind? path := do
    match ← attemptAt path (do return (← (← IO.FS.realPath path).metadata).type) with
    | .ok .dir => return some .directory
    | .ok _ => return some .file
    | .error _ => return none
  read path := attemptAt path (IO.FS.readBinFile path)
  list path := attemptAt path (do
    return ((← (← IO.FS.realPath path).readDir).map (·.fileName)).toList)
  makeDirectory path := attemptAt path (IO.FS.createDir path)
  stage directory content := attemptAt directory (stageFrom directory content 100000 0)
  rename path target := attemptAt target (IO.FS.rename path target)
  write path content := attemptAt path (IO.FS.writeBinFile path content)
  remove path := attemptAt path (IO.FS.removeFile path)
  canonical path := attemptAt path (do return (← IO.FS.realPath path).toString)
  workingDirectory := attempt (do return (← IO.currentDir).toString)

end Pagewright

/-- Runs the program. -/
def main (arguments : List String) : IO UInt32 := do
  let outcome ← Pagewright.CommandLine.run (m := IO) arguments
  IO.print outcome.output
  IO.eprint outcome.errors
  return outcome.code.toUInt32
