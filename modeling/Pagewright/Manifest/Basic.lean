/-
The manifest of a project.

* `Manifest.resolve` — places its paths below a directory, unless they are absolute;
* `Manifest.settings` — the options of generation that it declares.
-/
import Pagewright.Settings
import Pagewright.Storage.Path

namespace Pagewright

/-- What a project generates, from where and to where. -/
structure Manifest where
  name : String
  pages : List String
  output : String
  package? : Option String := none
  binding? : Option String := none
  table? : Option String := none
  strict : Bool := false
  deriving DecidableEq, Repr, Inhabited

namespace Manifest

/-- The name of the file that holds a manifest. -/
def fileName : String := "pagegen.json"

/-- The manifest with its relative paths placed below a directory. -/
def resolve (manifest : Manifest) (directory : String) : Manifest :=
  { manifest with
    pages := manifest.pages.map (Path.join directory)
    output := Path.join directory manifest.output
    table? := manifest.table?.map (Path.join directory) }

/-- The options of generation. -/
def settings (manifest : Manifest) : Settings :=
  { binding := manifest.binding?.getD ({} : Settings).binding
    package? := manifest.package?
    strict := manifest.strict }

end Manifest

end Pagewright
