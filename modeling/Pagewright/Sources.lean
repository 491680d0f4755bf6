/-
The two source files of a page.

* `Page.render` — checks a page and yields both files, or the first failure.
-/
import Pagewright.StateHolder
import Pagewright.Validation
import Pagewright.View.Basic

namespace Pagewright

/-- A file that is not written yet. -/
structure SourceFile where
  name : String
  content : String
  deriving DecidableEq, Repr

/-- The source files of a page. -/
structure PageSources where
  stateHolder : SourceFile
  view : SourceFile
  deriving DecidableEq, Repr

/-- The source files of a page. -/
def Page.render (page : Page) (registry : Registry) (settings : Settings) :
    Except Failure PageSources := do
  page.validate settings
  let stateHolder ← page.stateHolder settings
  let view ← page.view registry settings
  return ⟨⟨Kotlin.sourceFile (Kotlin.stateHolderType page.name), stateHolder⟩,
    ⟨Kotlin.sourceFile (Kotlin.viewFunction page.name), view⟩⟩

end Pagewright
