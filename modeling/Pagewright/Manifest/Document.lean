/-
Manifests as JSON documents.

* `Manifest.toJson` — what is written of a manifest; options without a value are left out;
* `Manifest.reader` — reads a manifest; name, pages and output directory have to be there.
-/
import Pagewright.Json.Reader
import Pagewright.Json.Value
import Pagewright.Manifest.Basic

namespace Pagewright

open Json

/-- An entry that is left out when it has no value. -/
def optionalEntry (key : String) (value : Option String) : List (String × Value) :=
  value.toList.map fun value => (key, .string value)

/-- What is written of a manifest. -/
def Manifest.toJson (manifest : Manifest) : Value :=
  .object ([("name", .string manifest.name), ("pages", .list (manifest.pages.map .string)),
      ("outputDir", .string manifest.output)]
    ++ optionalEntry "package" manifest.package?
    ++ optionalEntry "bindingName" manifest.binding?
    ++ optionalEntry "registry" manifest.table?
    ++ [("strict", .boolean manifest.strict)])

/-- Reads a path. -/
def readPath : Reader String := text "path string"

/-- The fields of a manifest. -/
def Manifest.slots (depth : Nat) : List (Slot Manifest) := [
  required "name" (text "a string") fun name manifest => { manifest with name },
  required "pages" (list (within (fun _ => readPath) depth))
    fun pages manifest => { manifest with pages },
  required "outputDir" readPath fun output manifest => { manifest with output },
  optionalField "package" (optional (text "a string"))
    fun package? manifest => { manifest with package? },
  optionalField "bindingName" (optional (text "a string"))
    fun binding? manifest => { manifest with binding? },
  optionalField "registry" (optional readPath)
    fun table? manifest => { manifest with table? },
  optionalField "strict" flag fun strict manifest => { manifest with strict }]

/-- Reads a manifest from a document. -/
def Manifest.reader : Reader Manifest :=
  record "ProjectManifest" default (within Manifest.slots depthLimit)

end Pagewright
