/-
Names of generated declarations and files.

* `pascalCase` — the parts of a page name between characters that are neither letters nor digits,
  each with its first character in upper case;
* `stateHolderType`, `viewFunction`, `sourceFile` — the names that a page gives rise to.
-/
import Pagewright.Text.Alphanumeric
import Pagewright.Text.Uppercase

namespace Pagewright.Kotlin

/-- The parts of a name, joined; `fresh` says that the next character begins a part. -/
def joinParts (fresh : Bool) : List Char → List Char
  | [] => []
  | c :: name =>
    if !Text.isAlphanumeric c then joinParts true name
    else if fresh then Text.upcase c ++ joinParts false name
    else c :: joinParts false name

/-- A name in Pascal case.  It is `Page` where no part is left, and an underscore goes in front of
an ASCII digit. -/
def pascalCase (name : String) : String :=
  match joinParts true name.toList with
  | [] => "Page"
  | c :: rest => String.ofList (if c.isDigit then '_' :: c :: rest else c :: rest)

/-- The class that holds the state of a page. -/
def stateHolderType (page : String) : String :=
  pascalCase page ++ "StateHolder"

/-- The function that shows a page. -/
def viewFunction (page : String) : String :=
  pascalCase page ++ "View"

/-- The file of a declaration. -/
def sourceFile (declaration : String) : String :=
  declaration ++ ".kt"

end Pagewright.Kotlin
