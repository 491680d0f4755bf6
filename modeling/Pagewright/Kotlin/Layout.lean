/-
The layout of a Kotlin source file.

* `header` — the line that names the page, and the package;
* `imports` — one line for each of some names, sorted and without repetition;
* `indent` — four columns for every level.
-/
namespace Pagewright.Kotlin

/-- The blanks in front of a line at a level. -/
def indent (level : Nat) : String :=
  String.ofList (List.replicate (4 * level) ' ')

/-- The head of the file of a page. -/
def header (page : String) (package? : Option String) : String :=
  "// Generated by pagegen from page `" ++ page ++ "`. Do not edit.\n\n"
    ++ (match package? with
      | some name => "package " ++ name ++ "\n\n"
      | none => "")

/-- Adds a name to names in strictly ascending order. -/
def insertName (name : String) : List String → List String
  | [] => [name]
  | first :: rest =>
    if name < first then name :: first :: rest
    else if first < name then first :: insertName name rest
    else first :: rest

/-- Names in strictly ascending order. -/
def sortedNames (names : List String) : List String :=
  names.foldr insertName []

/-- The import of a name. -/
def importLine (name : String) : String :=
  "import " ++ name ++ "\n"

/-- The imports of some names, and the empty line after them. -/
def imports (names : List String) : String :=
  match sortedNames names with
  | [] => ""
  | names => String.join (names.map importLine) ++ "\n"

end Pagewright.Kotlin
