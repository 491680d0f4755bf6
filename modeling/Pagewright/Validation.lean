/-
Pages whose parts agree with each other.

* `Page.validate` — the names of fields and those of methods are distinct; in strict mode, every
  reference to the page names a declared member and every action a declared method.  The first
  disagreement is reported: fields, methods, then the tree from the root down.
-/
import Pagewright.Failure
import Pagewright.Scope
import Pagewright.Settings

namespace Pagewright

/-- The first name that came before. -/
def firstRepeated (seen : List String) : List String → Option String
  | [] => none
  | name :: names => if seen.contains name then some name else firstRepeated (name :: seen) names

/-- Refuses names that are not distinct. -/
def checkDistinct (names : List String) (failure : String → Failure) : Except Failure Unit :=
  match firstRepeated [] names with
  | some name => .error (failure name)
  | none => .ok ()

/-- The first reference of a property value that names no member. -/
def PageState.missingMember? (state : PageState) (value : String) : Option String :=
  (ScopedText.read value pageScope).members.find? (!state.hasMember ·)

/-- Whether an action names a declared method; actions of other kinds name none. -/
def PageState.allowsAction (state : PageState) (action : Action) : Bool :=
  action.kind != .invoke || (state.method? action.method).isSome

/-- Checks a node without its children. -/
def checkOwnReferences (state : PageState) (path : NodePath) (props : OrderedMap String)
    (events : List Event) : Except Failure Unit :=
  match props.values.findSome? state.missingMember? with
  | some member => .error (.unknownScopeReference member path)
  | none =>
    match (events.flatMap (·.actions)).find? (!state.allowsAction ·) with
    | some action => .error (.unknownActionTarget action.method path)
    | none => .ok ()

mutual

/-- Checks the references of a node and everything inside it. -/
def checkReferences (state : PageState) (path : NodePath) : Node → Except Failure Unit
  | ⟨_, props, events, children⟩ => do
    checkOwnReferences state path props events
    checkChildReferences state path 0 children

/-- Checks the children of a node from an index on. -/
def checkChildReferences (state : PageState) (path : NodePath) (index : Nat) :
    List Node → Except Failure Unit
  | [] => .ok ()
  | node :: rest => do
    checkReferences state (path.child index node) node
    checkChildReferences state path (index + 1) rest

end

/-- Checks a page. -/
def Page.validate (page : Page) (settings : Settings) : Except Failure Unit := do
  checkDistinct (page.state.fields.map (·.name)) .duplicateField
  checkDistinct (page.state.methods.map (·.name)) .duplicateMethod
  if settings.strict then
    checkReferences page.state (.ofRoot page.root) page.root

end Pagewright
