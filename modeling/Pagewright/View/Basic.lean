/-
The view of a page: one function that shows the component tree.

* `Node.resolve` — looks up everything in a tree and yields its calls, or the first thing that
  cannot be generated: the component of a node, then its events, then its children;
* `Page.view` — the source text.
-/
import Pagewright.Failure
import Pagewright.Kotlin.Name
import Pagewright.Settings
import Pagewright.View.Call

namespace Pagewright

/-- The annotation of a function that shows something. -/
def composable : String := "androidx.compose.runtime.Composable"

/-- The method that an action calls. -/
def Action.resolve (path : NodePath) (action : Action) : Except Failure String :=
  match action.kind with
  | .invoke => .ok action.method
  | .other kind => .error (.unsupportedAction kind path)

/-- The callbacks of events, given the parameters that are bound already. -/
def resolveEvents (registry : Registry) (path : NodePath) (bound : List String) :
    List Event → Except Failure (List Argument)
  | [] => .ok []
  | event :: events => do
    let rule ← match registry.event? event.type with
      | some rule => .ok rule
      | none => .error (.unsupportedEvent event.type path)
    if bound.contains rule.parameter then .error (.duplicateArgument rule.parameter path)
    let methods ← event.actions.mapM (Action.resolve path)
    let arguments ← resolveEvents registry path (rule.parameter :: bound) events
    return ⟨rule.parameter, .callback methods⟩ :: arguments

/-- The arguments that properties become. -/
def propArguments (props : OrderedMap String) : List Argument :=
  props.entries.map fun (name, value) => ⟨name, .expression value⟩

namespace Node

mutual

/-- The calls of a tree whose root stands at a path. -/
def resolve (registry : Registry) (path : NodePath) : Node → Except Failure Call
  | ⟨component, props, events, children⟩ => do
    let construct ← match registry.component? component with
      | some construct => .ok construct
      | none => .error (.unknownComponent component path)
    let callbacks ← resolveEvents registry path props.names events
    let calls ← resolveAll registry path 0 children
    return ⟨construct, propArguments props ++ callbacks, calls⟩

/-- The calls of the children of a node from an index on. -/
def resolveAll (registry : Registry) (path : NodePath) (index : Nat) :
    List Node → Except Failure (List Call)
  | [] => .ok []
  | node :: rest => do
    let call ← resolve registry (path.child index node) node
    let calls ← resolveAll registry path (index + 1) rest
    return call :: calls

end

end Node

/-- The source text of a view whose calls are resolved. -/
def viewSource (page : String) (settings : Settings) (call : Call) : String :=
  Kotlin.header page settings.package? ++ Kotlin.imports (composable :: call.targets)
    ++ "@Composable\nfun " ++ Kotlin.viewFunction page ++ "(" ++ settings.binding ++ ": "
    ++ Kotlin.stateHolderType page ++ ") \x7b\n"
    ++ call.block settings.binding 1 ++ "\x7d\n"

/-- The source text of the view of a page. -/
def Page.view (page : Page) (registry : Registry) (settings : Settings) :
    Except Failure String := do
  let call ← page.root.resolve registry (.ofRoot page.root)
  return viewSource page.name settings call

end Pagewright
