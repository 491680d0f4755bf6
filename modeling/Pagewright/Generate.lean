/-
Writing the source files of pages.

* `generate` — both files of a page or neither: they are rendered, then written under names of
  their own into the output directory, and only then moved to their places.  If the view cannot be
  moved, the state holder is put back as it was;
* `generateBatch` — pages one by one, each with its own report.  A page whose files an earlier page
  of the batch has claimed is refused.
-/
import Pagewright.Sources
import Pagewright.Storage.Directories

namespace Pagewright

variable {m : Type → Type} [Monad m] [FileSystem m]

/-- Where the files of a page are. -/
structure Artifacts where
  stateHolder : String
  view : String
  deriving DecidableEq, Repr

/-- What became of a page: its files, unless they were only rendered, or a failure. -/
structure PageReport where
  page : String
  outcome : Except Failure (Option Artifacts)

/-- Whether a page was generated. -/
def PageReport.isOk (report : PageReport) : Bool :=
  report.outcome.isOk

/-- The content of a file, if there is one. -/
def readExisting (path : String) : m (Except StorageError (Option ByteArray)) := do
  match ← FileSystem.read path with
  | .ok content => return .ok (some content)
  | .error .notFound => return .ok none
  | .error refusal => return .error refusal

/-- Puts a file back to what it was. -/
def restore (path : String) (previous : Option ByteArray) : m Unit := do
  match previous with
  | some content => let _ ← FileSystem.write path content
  | none => let _ ← FileSystem.remove path

/-- Removes a file that did not come to its place. -/
def discard (staged : String) : m Unit := do
  let _ ← FileSystem.remove staged

/-- Moves two new files to their places. -/
def placeBoth (stagedHolder stagedView : String) (places : Artifacts) :
    m (Except StorageError Unit) := do
  match ← readExisting places.stateHolder with
  | .error refusal =>
    discard stagedView
    discard stagedHolder
    return .error refusal
  | .ok previous =>
    match ← FileSystem.rename stagedHolder places.stateHolder with
    | .error refusal =>
      discard stagedHolder
      discard stagedView
      return .error refusal
    | .ok () =>
      match ← FileSystem.rename stagedView places.view with
      | .error refusal =>
        restore places.stateHolder previous
        discard stagedView
        return .error refusal
      | .ok () => return .ok ()

/-- Writes the files of a page into a directory. -/
def writeSources (sources : PageSources) (directory : String) :
    m (Except StorageError Artifacts) := do
  match ← FileSystem.stage directory sources.stateHolder.content.toUTF8 with
  | .error refusal => return .error refusal
  | .ok stagedHolder =>
    match ← FileSystem.stage directory sources.view.content.toUTF8 with
    | .error refusal =>
      discard stagedHolder
      return .error refusal
    | .ok stagedView =>
      let places : Artifacts := ⟨Path.join directory sources.stateHolder.name,
        Path.join directory sources.view.name⟩
      match ← placeBoth stagedHolder stagedView places with
      | .ok () => return .ok places
      | .error refusal => return .error refusal

/-- Makes an output directory and writes the files of a page into it. -/
def writeInto (directory : String) (sources : PageSources) : m (Except StorageError Artifacts) := do
  match ← makeDirectories directory with
  | .ok () => writeSources sources directory
  | .error refusal => return .error refusal

/-- Generates the files of a page. -/
def generate (page : Page) (output : String) (registry : Registry) (settings : Settings) :
    m (Except Failure Artifacts) := do
  match page.render registry settings with
  | .error failure => return .error failure
  | .ok sources => return (← writeInto output sources).mapError .storage

/-- What becomes of a page whose files nobody has claimed. -/
def generateOne (output : String) (registry : Registry) (settings : Settings) (dryRun : Bool)
    (page : Page) : m (Except Failure (Option Artifacts)) := do
  if dryRun then return (page.render registry settings).map fun _ => none
  else return (← generate page output registry settings).map some

/-- Generates pages one by one; `claimed` holds the state holders of earlier pages. -/
def generateUnclaimed (output : String) (registry : Registry) (settings : Settings)
    (dryRun : Bool) (claimed : List String) : List Page → m (List PageReport)
  | [] => return []
  | page :: pages => do
    let type := Kotlin.stateHolderType page.name
    let outcome ←
      if claimed.contains type then pure (.error (.duplicatePage page.name))
      else generateOne output registry settings dryRun page
    let reports ← generateUnclaimed output registry settings dryRun (type :: claimed) pages
    return ⟨page.name, outcome⟩ :: reports

/-- Generates pages, or with `dryRun` only renders them. -/
def generateBatch (pages : List Page) (output : String) (registry : Registry)
    (settings : Settings) (dryRun : Bool) : m (List PageReport) :=
  generateUnclaimed output registry settings dryRun [] pages

/-- Generates pages into an output directory that is made first, also for no pages. -/
def emit (pages : List Page) (output : String) (registry : Registry) (settings : Settings)
    (dryRun : Bool) : m (Except Failure (List PageReport)) := do
  if dryRun then return .ok (← generateBatch pages output registry settings dryRun)
  else
    match ← makeDirectories output with
    | .error refusal => return .error (.storage refusal)
    | .ok () => return .ok (← generateBatch pages output registry settings dryRun)

end Pagewright
