/-
The vocabulary of a project: which components and events can be generated, and as what.

* `Registry.component?`, `Registry.event?` — look-up; what has no entry is not generated at all;
* `Construct.simpleName` — the part of a target that call sites use.
-/
import Pagewright.OrderedMap

namespace Pagewright

/-- What a component is generated as: a target with its full name. -/
structure Construct where
  target : String
  deriving DecidableEq, Repr, Inhabited

/-- The part of a dotted name after its last dot. -/
def lastComponent (name : List Char) : List Char :=
  (name.reverse.takeWhile (· != '.')).reverse

/-- The name of a construct at call sites, after its import. -/
def Construct.simpleName (construct : Construct) : String :=
  String.ofList (lastComponent construct.target.toList)

/-- What an event is generated as: the parameter that takes its callback. -/
structure EventRule where
  parameter : String
  deriving DecidableEq, Repr, Inhabited

/-- A table of constructs and event rules by name. -/
structure Registry where
  version : Nat
  components : OrderedMap Construct
  events : OrderedMap EventRule
  deriving DecidableEq, Inhabited

namespace Registry

/-- The newest version of a table that is understood. -/
def currentVersion : Nat := 1

/-- The table without entries. -/
def empty : Registry :=
  ⟨currentVersion, ∅, ∅⟩

/-- The construct of a component. -/
def component? (registry : Registry) (name : String) : Option Construct :=
  registry.components.find? name

/-- The rule of an event. -/
def event? (registry : Registry) (name : String) : Option EventRule :=
  registry.events.find? name

/-- The table with an entry for a component. -/
def withComponent (registry : Registry) (name target : String) : Registry :=
  { registry with components := registry.components.insert name ⟨target⟩ }

/-- The table with an entry for an event. -/
def withEvent (registry : Registry) (name parameter : String) : Registry :=
  { registry with events := registry.events.insert name ⟨parameter⟩ }

/-- The built-in vocabulary of Compose: a vertical stack, a text and a button that can be
clicked. -/
def compose : Registry :=
  empty
    |>.withComponent "Column" "androidx.compose.foundation.layout.Column"
    |>.withComponent "Text" "androidx.compose.material3.Text"
    |>.withComponent "Button" "androidx.compose.material3.Button"
    |>.withEvent "onClick" "onClick"

end Registry

end Pagewright
