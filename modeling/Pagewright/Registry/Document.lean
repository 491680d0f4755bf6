/-
Registry tables as JSON documents.

* `Registry.toJson` — what is written of a table;
* `Registry.reader` — reads a table; only the version has to be there;
* `Registry.read` — the same for a text, and refuses a table whose version is newer than the
  current one.
-/
import Pagewright.Failure
import Pagewright.Json.Reader
import Pagewright.Json.Value
import Pagewright.Registry.Basic

namespace Pagewright

open Json

/-- What is written of a construct. -/
def Construct.toJson (construct : Construct) : Value :=
  .object [("target", .string construct.target)]

/-- What is written of an event rule. -/
def EventRule.toJson (rule : EventRule) : Value :=
  .object [("param", .string rule.parameter)]

/-- What is written of a map. -/
def mapToJson (item : α → Value) (map : OrderedMap α) : Value :=
  .object (map.entries.map fun (key, value) => (key, item value))

/-- What is written of a table. -/
def Registry.toJson (registry : Registry) : Value :=
  .object [("version", .natural registry.version),
    ("components", mapToJson Construct.toJson registry.components),
    ("events", mapToJson EventRule.toJson registry.events)]

/-- The fields of a construct. -/
def Construct.slots : List (Slot Construct) := [
  required "target" (text "a string") fun target _ => ⟨target⟩]

/-- The fields of an event rule. -/
def EventRule.slots : List (Slot EventRule) := [
  required "param" (text "a string") fun parameter _ => ⟨parameter⟩]

/-- The fields of a table. -/
def Registry.slots (depth : Nat) : List (Slot Registry) := [
  required "version" natural32 fun version registry => { registry with version },
  optionalField "components"
    (map (within (fun depth =>
      record "ConstructDescriptor" default (within (fun _ => Construct.slots) depth)) depth))
    fun components registry => { registry with components },
  optionalField "events"
    (map (within (fun depth =>
      record "EventEmissionRule" default (within (fun _ => EventRule.slots) depth)) depth))
    fun events registry => { registry with events }]

/-- Reads a table from a document. -/
def Registry.reader : Reader Registry :=
  record "RegistryTable" Registry.empty (within Registry.slots depthLimit)

/-- The table, unless its version is newer than what is understood. -/
def Registry.checked (registry : Registry) : Except Failure Registry :=
  if registry.version ≤ Registry.currentVersion then .ok registry
  else .error (.unsupportedRegistryVersion registry.version)

/-- Reads the text of a table. -/
def Registry.read (document : String) : Except Failure Registry := do
  let registry ← (readDocument Registry.reader .memory (Input.ofText document)).mapError
    Failure.text
  registry.checked

end Pagewright
