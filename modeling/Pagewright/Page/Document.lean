/-
Page definitions as JSON documents.

* `Page.toJson` — what is written of a page: properties, events and children of a node only where
  there are any, everything else always;
* `Page.read` — reads a page; only the component tree has to be there, and a name that is left out
  or empty gives way to another one.
-/
import Pagewright.Json.Reader
import Pagewright.Json.Value
import Pagewright.Page.Basic

namespace Pagewright

open Json

/-- An entry that is left out when there is nothing in it. -/
def entryUnless (isEmpty : Bool) (key : String) (value : Value) : List (String × Value) :=
  if isEmpty then [] else [(key, value)]

/-- What is written of a field. -/
def Field.toJson (field : Field) : Value :=
  .object [("name", .string field.name), ("kind", .string field.kind.name),
    ("initialValue", .string field.initial)]

/-- What is written of a method. -/
def Method.toJson (method : Method) : Value :=
  .object [("name", .string method.name), ("body", .string method.body)]

/-- What is written of the state of a page. -/
def PageState.toJson (state : PageState) : Value :=
  .object [("fields", .list (state.fields.map Field.toJson)),
    ("methods", .list (state.methods.map Method.toJson))]

/-- What is written of an action. -/
def Action.toJson (action : Action) : Value :=
  .object [("type", .string action.kind.name), ("actionName", .string action.method)]

/-- What is written of an event. -/
def Event.toJson (event : Event) : Value :=
  .object [("type", .string event.type), ("actions", .list (event.actions.map Action.toJson))]

namespace Node

/-- What is written of the properties of a node. -/
def propsToJson (props : OrderedMap String) : Value :=
  .object (props.entries.map fun (key, value) => (key, .string value))

mutual

/-- What is written of a tree. -/
def toJson : Node → Value
  | ⟨component, props, events, children⟩ =>
    .object ([("componentName", .string component)]
      ++ entryUnless props.isEmpty "props" (propsToJson props)
      ++ entryUnless events.isEmpty "events" (.list (events.map Event.toJson))
      ++ entryUnless children.isEmpty "children" (.list (allToJson children)))

/-- What is written of some trees. -/
def allToJson : List Node → List Value
  | [] => []
  | node :: rest => node.toJson :: allToJson rest

end

end Node

/-- What is written of a page. -/
def Page.toJson (page : Page) : Value :=
  .object [("name", .string page.name), ("pageInfo", page.state.toJson),
    ("componentTree", page.root.toJson)]

/-- Reads any string. -/
def readString : Reader String := text "a string"

/-- The fields of a field. -/
def Field.slots : List (Slot Field) := [
  required "name" readString fun name field => { field with name },
  required "kind" readString fun kind field => { field with kind := .ofName kind },
  required "initialValue" readString fun initial field => { field with initial }]

/-- The fields of a method. -/
def Method.slots : List (Slot Method) := [
  required "name" readString fun name method => { method with name },
  required "body" readString fun body method => { method with body }]

/-- The fields of an action. -/
def Action.slots : List (Slot Action) := [
  required "type" readString fun kind action => { action with kind := .ofName kind },
  optionalField "actionName" readString fun method action => { action with method }]

/-- The fields of the state of a page. -/
def PageState.slots (depth : Nat) : List (Slot PageState) := [
  optionalField "fields"
    (list (within (fun depth => record "Field" default (within (fun _ => Field.slots) depth))
      depth))
    fun fields state => { state with fields },
  optionalField "methods"
    (list (within (fun depth => record "Method" default (within (fun _ => Method.slots) depth))
      depth))
    fun methods state => { state with methods }]

/-- The fields of an event. -/
def Event.slots (depth : Nat) : List (Slot Event) := [
  required "type" readString fun type event => { event with type },
  optionalField "actions"
    (list (within (fun depth => record "Action" default (within (fun _ => Action.slots) depth))
      depth))
    fun actions event => { event with actions }]

/-- The fields of a node, given what reads one of its children. -/
def Node.slots (depth : Nat) (child : Option (Reader Node)) : List (Slot Node) := [
  required "componentName" readString fun component node => { node with component },
  optionalField "props" (map (within (fun _ => readString) depth))
    fun props node => { node with props },
  optionalField "events"
    (list (within (fun depth => record "Event" default (within Event.slots depth)) depth))
    fun events node => { node with events },
  optionalField "children" (list child) fun children node => { node with children }]

/-- Reads a node inside of which some brackets may be open. -/
def Node.reader : (depth : Nat) → Reader Node
  | 0 => record "TreeNode" default none
  | depth + 1 => record "TreeNode" default (some (Node.slots depth (match depth with
    | 0 => none
    | depth + 1 => some (Node.reader depth))))

/-- The fields of a page. -/
def Page.slots (depth : Nat) : List (Slot Page) := [
  optionalField "name" readString fun name page => { page with name },
  optionalField "pageInfo" (record "PageInfo" default (within PageState.slots depth))
    fun state page => { page with state },
  required "componentTree" (Node.reader depth) fun root page => { page with root }]

/-- Reads a page from a document. -/
def Page.reader : Reader Page :=
  record "PageDefinition" default (within Page.slots depthLimit)

/-- The page with another name if it has none. -/
def Page.named (page : Page) (fallback : String) : Page :=
  if page.name.isEmpty then { page with name := fallback } else page

/-- Reads the text of a page definition. -/
def Page.read (document fallback : String) : Except Diagnostic Page := do
  let page ← readDocument Page.reader .memory (Input.ofText document)
  return page.named fallback

end Pagewright
