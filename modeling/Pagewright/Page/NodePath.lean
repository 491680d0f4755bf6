/-
Where a node stands in a component tree.

* `NodePath.text` — the component of the root, then for every step down the index among the
  siblings and the component: `Column/children[1]:Button`.
-/
import Pagewright.Page.Basic

namespace Pagewright

/-- The way from the root of a component tree down to a node. -/
structure NodePath where
  root : String
  steps : List (Nat × String) := []
  deriving DecidableEq, Repr, Inhabited

namespace NodePath

/-- The path of the root of a tree. -/
def ofRoot (node : Node) : NodePath :=
  ⟨node.component, []⟩

/-- The path of a child, given its index among its siblings. -/
def child (path : NodePath) (index : Nat) (node : Node) : NodePath :=
  { path with steps := path.steps ++ [(index, node.component)] }

/-- How one step down is written. -/
def stepText (step : Nat × String) : String :=
  "/children[" ++ toString step.1 ++ "]:" ++ step.2

/-- How a path is written. -/
def text (path : NodePath) : String :=
  path.steps.foldl (fun written step => written ++ stepText step) path.root

end NodePath

end Pagewright
