/-
Page definitions: the state of a page and the tree of its components.

* `FieldKind.ofName`, `ActionKind.ofName` — kinds are read from names, and a name that means
  nothing is kept, so that it can be reported where it is used;
* `PageState.hasMember` — what a reference to the page may name;
* `Node.depth`, `Node.count` — the size of a component tree.
-/
import Pagewright.OrderedMap

namespace Pagewright

/-- The type of a field. -/
inductive FieldKind
  | number
  | string
  | boolean
  | unsupported (name : String)
  deriving DecidableEq, Repr, Inhabited

namespace FieldKind

/-- The kind of a name; the case of ASCII letters does not matter. -/
def ofName (name : String) : FieldKind :=
  if name.toLower = "number" then .number
  else if name.toLower = "string" then .string
  else if name.toLower = "boolean" then .boolean
  else .unsupported name

/-- The name of a kind, in lower case if the kind is a supported one. -/
def name : FieldKind → String
  | .number => "number"
  | .string => "string"
  | .boolean => "boolean"
  | .unsupported name => name

end FieldKind

/-- One piece of the state of a page, with the text of its first value. -/
structure Field where
  name : String
  kind : FieldKind
  initial : String
  deriving DecidableEq, Repr, Inhabited

/-- One operation on the state of a page; the body is statement text. -/
structure Method where
  name : String
  body : String
  deriving DecidableEq, Repr, Inhabited

/-- The state of a page: fields and methods in the order of their declaration. -/
structure PageState where
  fields : List Field := []
  methods : List Method := []
  deriving DecidableEq, Repr, Inhabited

namespace PageState

/-- The first field of a name. -/
def field? (state : PageState) (name : String) : Option Field :=
  state.fields.find? (·.name = name)

/-- The first method of a name. -/
def method? (state : PageState) (name : String) : Option Method :=
  state.methods.find? (·.name = name)

/-- Whether a field or a method has the name. -/
def hasMember (state : PageState) (name : String) : Bool :=
  (state.field? name).isSome || (state.method? name).isSome

end PageState

/-- What an action does. -/
inductive ActionKind
  | invoke
  | other (name : String)
  deriving DecidableEq, Repr, Inhabited

namespace ActionKind

/-- The name of the kind that invokes a method. -/
def invokeName : String := "actionName"

/-- The kind of a name. -/
def ofName (name : String) : ActionKind :=
  if name = invokeName then .invoke else .other name

/-- The name of a kind. -/
def name : ActionKind → String
  | .invoke => invokeName
  | .other name => name

end ActionKind

/-- One step of the reaction to an event. -/
structure Action where
  kind : ActionKind
  method : String := ""
  deriving DecidableEq, Repr, Inhabited

/-- An event of a component and the actions it sets off, in order. -/
structure Event where
  type : String
  actions : List Action := []
  deriving DecidableEq, Repr, Inhabited

/-- A component of a page with everything inside it. -/
structure Node where
  component : String
  props : OrderedMap String := ∅
  events : List Event := []
  children : List Node := []
  deriving Inhabited

namespace Node

/-- The node with one property set. -/
def withProp (node : Node) (name value : String) : Node :=
  { node with props := node.props.insert name value }

/-- The node with one more event. -/
def withEvent (node : Node) (event : Event) : Node :=
  { node with events := node.events ++ [event] }

/-- The node with one more child. -/
def withChild (node child : Node) : Node :=
  { node with children := node.children ++ [child] }

mutual

/-- The number of levels of a tree; a node without children has one. -/
def depth : Node → Nat
  | ⟨_, _, _, children⟩ => 1 + depthOfAll children

/-- The greatest depth among some trees. -/
def depthOfAll : List Node → Nat
  | [] => 0
  | node :: rest => max node.depth (depthOfAll rest)

end

mutual

/-- The number of nodes of a tree. -/
def count : Node → Nat
  | ⟨_, _, _, children⟩ => 1 + countAll children

/-- The number of nodes of some trees. -/
def countAll : List Node → Nat
  | [] => 0
  | node :: rest => node.count + countAll rest

end

end Node

/-- A page: its name, its state and what it shows. -/
structure Page where
  name : String := ""
  state : PageState := {}
  root : Node
  deriving Inhabited

end Pagewright
