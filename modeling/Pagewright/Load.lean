/-
Pages, tables and manifests in files.

* `loadPage` — reads a page; without a name of its own it takes that of its file;
* `loadRegistry`, `loadManifest` — read a table and a manifest;
* `extract` — reads all pages of some sources.  A directory stands for the page files directly in
  it, in the order of their names, and a file that cannot be read does not keep the others back.
-/
import Pagewright.Manifest.Document
import Pagewright.Page.Document
import Pagewright.Registry.Document

namespace Pagewright

variable {m : Type → Type} [Monad m] [FileSystem m]

/-- The page in the content of a file. -/
def pageOfContent (path : String) (content : ByteArray) : Except Failure Page :=
  match String.fromUTF8? content with
  | none => .error (.storage .notText)
  | some text =>
    (Page.read text (Path.stem path)).mapError fun diagnostic =>
      .document path (.malformed diagnostic)

/-- Reads a page. -/
def loadPage (path : String) : m (Except Failure Page) := do
  match ← FileSystem.read path with
  | .error refusal => return .error (.storage refusal)
  | .ok content => return pageOfContent path content

/-- The value that the content of a file holds. -/
def valueOfContent (reader : Json.Reader α) (content : ByteArray) : Except DocumentError α :=
  (Json.readDocument reader .file (Json.Input.ofBytes content)).mapError .malformed

/-- Opens a file that holds a document, and reads it.  A directory can be opened and not read. -/
def loadDocument (reader : Json.Reader α) (path : String) :
    m (Except StorageError (Except DocumentError α)) := do
  match ← FileSystem.read path with
  | .ok content => return .ok (valueOfContent reader content)
  | .error .isDirectory => return .ok (.error (.unreadable .isDirectory))
  | .error refusal => return .error refusal

/-- Reads a table. -/
def loadRegistry (path : String) : m (Except Failure Registry) := do
  match ← loadDocument Registry.reader path with
  | .error refusal => return .error (.storage refusal)
  | .ok (.error error) => return .error (.document path error)
  | .ok (.ok registry) => return registry.checked

/-- A file that holds no page, and why. -/
structure SourceFailure where
  file : String
  failure : Failure
  deriving DecidableEq, Repr

/-- The pages of some sources, and the files that could not be read. -/
structure Extraction where
  pages : List Page := []
  failures : List SourceFailure := []

/-- Keeps the paths that lead to page files. -/
def keepPageFiles : List String → m (List String)
  | [] => return []
  | path :: paths => do
    let isPage := (← FileSystem.isFile path) && Path.extension? path == some "json"
    let rest ← keepPageFiles paths
    return if isPage then path :: rest else rest

/-- The page files of a source. -/
def pageFiles (source : String) : m (Except StorageError (List String)) := do
  if ← FileSystem.isDirectory source then
    match ← FileSystem.list source with
    | .error refusal => return .error refusal
    | .ok names =>
      let files ← keepPageFiles (names.map (Path.join source))
      return .ok (files.mergeSort (· ≤ ·))
  else return .ok [source]

/-- Reads some files. -/
def loadPages : List String → m Extraction
  | [] => return {}
  | file :: files => do
    let page ← loadPage file
    let rest ← loadPages files
    match page with
    | .ok page => return { rest with pages := page :: rest.pages }
    | .error failure => return { rest with failures := ⟨file, failure⟩ :: rest.failures }

/-- Reads the pages of some sources. -/
def extract : List String → m (Except StorageError Extraction)
  | [] => return .ok {}
  | source :: sources => do
    match ← pageFiles source with
    | .error refusal => return .error refusal
    | .ok files =>
      let first ← loadPages files
      match ← extract sources with
      | .error refusal => return .error refusal
      | .ok rest =>
        return .ok ⟨first.pages ++ rest.pages, first.failures ++ rest.failures⟩

end Pagewright
