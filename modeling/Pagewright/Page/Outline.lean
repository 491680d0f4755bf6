/-
Pages and component trees in a form for reading.

* `Node.outline` — one line for a node with its properties, one for each of its events, then its
  children two columns further in;
* `Page.outline` — the state of a page, an empty line if there is any, and its tree.
-/
import Pagewright.Page.Basic
import Pagewright.Text.Lines
import Pagewright.Text.Quoted

namespace Pagewright

/-- Two columns for every level. -/
def outlineIndent (level : Nat) : String :=
  String.ofList (List.replicate (2 * level) ' ')

/-- A property as it follows the component on its line. -/
def outlineProp (prop : String × String) : String :=
  " " ++ prop.1 ++ "=" ++ Text.quoted prop.2

/-- An action as it stands in the line of its event. -/
def Action.outline (action : Action) : String :=
  action.kind.name ++ "(" ++ action.method ++ ")"

/-- The line of an event. -/
def Event.outline (level : Nat) (event : Event) : String :=
  let actions := event.actions.map Action.outline
  outlineIndent level ++ "  on " ++ event.type ++ " ->"
    ++ (if actions.isEmpty then "" else " " ++ ", ".intercalate actions) ++ "\n"

namespace Node

mutual

/-- The lines of a tree that stands at a level. -/
def outlineAt (level : Nat) : Node → String
  | ⟨component, props, events, children⟩ =>
    outlineIndent level ++ component ++ String.join (props.entries.map outlineProp) ++ "\n"
      ++ String.join (events.map (Event.outline level))
      ++ outlineAll (level + 1) children

/-- The lines of trees that stand side by side at a level. -/
def outlineAll (level : Nat) : List Node → String
  | [] => ""
  | node :: rest => outlineAt level node ++ outlineAll level rest

end

/-- The lines of a tree. -/
def outline (node : Node) : String :=
  node.outlineAt 0

end Node

/-- The line of a field. -/
def Field.outline (field : Field) : String :=
  "  field " ++ field.name ++ ": " ++ field.kind.name ++ " = " ++ field.initial ++ "\n"

/-- The lines of a method. -/
def Method.outline (method : Method) : String :=
  "  method " ++ method.name ++ " \x7b\n"
    ++ String.join ((Text.lines method.body.toList).map
      fun line => "    " ++ String.ofList line ++ "\n")
    ++ "  \x7d\n"

/-- The lines of the state of a page. -/
def PageState.outline (state : PageState) : String :=
  String.join (state.fields.map Field.outline) ++ String.join (state.methods.map Method.outline)
    ++ (if state.fields.isEmpty && state.methods.isEmpty then "" else "\n")

/-- The lines of a page; the last one has no line feed. -/
def Page.outline (page : Page) : String :=
  "page " ++ page.name ++ " \x7b\n" ++ page.state.outline ++ page.root.outlineAt 1 ++ "\x7d"

end Pagewright
