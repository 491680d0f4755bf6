/-
The state holder of a page: a class with a cell for every field and a function for every method.

* `Page.stateHolder` — the source text, unless some field has a kind without a type.
-/
import Pagewright.Failure
import Pagewright.Kotlin.Layout
import Pagewright.Kotlin.Literal
import Pagewright.Kotlin.Name
import Pagewright.Scope
import Pagewright.Settings
import Pagewright.Text.Lines
import Pagewright.Text.WhiteSpace

namespace Pagewright

/-- The function that makes a cell. -/
def mutableStateOf : String := "androidx.compose.runtime.mutableStateOf"

/-- The class that state holders extend. -/
def viewModelClass : String := "androidx.lifecycle.ViewModel"

/-- The line of a field. -/
def Field.cell (field : Field) : Except Failure String :=
  match Kotlin.typeName? field.kind with
  | some type => .ok (Kotlin.indent 1 ++ "val " ++ field.name ++ " = mutableStateOf<" ++ type ++ ">("
      ++ Kotlin.initializer field.kind field.initial ++ ")\n")
  | none => .error (.unsupportedFieldType field.name field.kind.name)

/-- A line of a method body as it is written; a line of white space becomes empty. -/
def bodyLine (line : List Char) : String :=
  if Text.isBlank line then "\n"
  else Kotlin.indent 2 ++ String.ofList (Text.trimEnd line) ++ "\n"

/-- The lines of a method. -/
def Method.function (method : Method) : String :=
  Kotlin.indent 1 ++ "fun " ++ method.name ++ "() \x7b\n"
    ++ String.join ((Text.lines (dropSelfScope method.body).toList).map bodyLine)
    ++ Kotlin.indent 1 ++ "\x7d\n"

/-- The parts of the class, between which an empty line stands. -/
def PageState.sections (state : PageState) : Except Failure (List String) := do
  let cells ← state.fields.mapM Field.cell
  return (if cells.isEmpty then [] else [String.join cells]) ++ state.methods.map Method.function

/-- What a state holder imports. -/
def PageState.imports (state : PageState) : List String :=
  (if state.fields.isEmpty then [] else [mutableStateOf]) ++ [viewModelClass]

/-- The source text of the state holder of a page. -/
def Page.stateHolder (page : Page) (settings : Settings) : Except Failure String := do
  let sections ← page.state.sections
  return Kotlin.header page.name settings.package? ++ Kotlin.imports page.state.imports
    ++ "class " ++ Kotlin.stateHolderType page.name ++ " : ViewModel() \x7b\n"
    ++ "\n".intercalate sections ++ "\x7d\n"

end Pagewright
