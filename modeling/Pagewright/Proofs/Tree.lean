/-
The nodes of a component tree.

* `Node.IsIn` — a node stands somewhere in a tree, at any depth;
* `Node.StandsAt` — a node stands in a tree at a place that is written
  `Root/children[i]:Name/…`;
* `Node.placed` — the nodes of a tree with their paths, a node before
  everything inside it and siblings in their order.

`placed_standsAt`, `exists_placed` and `isIn_of_placed` say that these agree:
the paths of `placed` are the places of `StandsAt`, no node of the tree is left
out, and there are no others.
`length_placed`, `length_steps_lt` and `exists_deepest` read off the number of
nodes of a tree and of its levels.
-/
import Pagewright.Page.NodePath

namespace Pagewright

namespace Node

/-- A node stands somewhere in a tree. -/
inductive IsIn (node : Node) : Node → Prop
  | root : IsIn node node
  | child {child parent : Node} :
    child ∈ parent.children → IsIn node child → IsIn node parent

/-- A node stands in the tree of `root` at a place, as that is written. -/
inductive StandsAt (root : Node) : String → Node → Prop
  | root : StandsAt root root.component root
  | child {text : String} {parent node : Node} {index : Nat} :
    StandsAt root text parent → parent.children[index]? = some node →
    StandsAt root (text ++ "/children[" ++ toString index ++ "]:" ++ node.component) node

mutual

/-- The nodes of a tree with their paths, given the path of its root. -/
def placed (path : NodePath) : Node → List (NodePath × Node)
  | ⟨component, props, events, children⟩ =>
    (path, ⟨component, props, events, children⟩) :: placedAll path 0 children

/-- The nodes below a node with their paths, given its children from an
index on. -/
def placedAll (path : NodePath) (index : Nat) : List Node → List (NodePath × Node)
  | [] => []
  | node :: rest => placed (path.child index node) node ++ placedAll path (index + 1) rest

end

end Node

theorem NodePath.text_child (path : NodePath) (index : Nat) (node : Node) :
    (path.child index node).text
      = path.text ++ "/children[" ++ toString index ++ "]:" ++ node.component := by
  simp [NodePath.text, NodePath.child, NodePath.stepText, String.append_assoc]

namespace Node

mutual

/-- The paths of a tree are places of every tree that it stands in. -/
theorem placed_standsAt {root : Node} {path : NodePath} :
    ∀ {node : Node}, StandsAt root path.text node →
      ∀ entry ∈ placed path node, StandsAt root entry.1.text entry.2
  | ⟨component, props, events, children⟩, h, entry, hmem => by
    rw [placed, List.mem_cons] at hmem
    rcases hmem with rfl | hmem
    · exact h
    · have hc : (Node.mk component props events children).children = [] ++ children := rfl
      exact placedAll_standsAt h hc entry hmem

theorem placedAll_standsAt {root parent : Node} {path : NodePath} :
    ∀ {before rest : List Node}, StandsAt root path.text parent →
      parent.children = before ++ rest →
      ∀ entry ∈ placedAll path before.length rest, StandsAt root entry.1.text entry.2
  | before, [], _, _, entry, hmem => by simp [placedAll] at hmem
  | before, node :: rest, h, hc, entry, hmem => by
    rw [placedAll, List.mem_append] at hmem
    rcases hmem with hmem | hmem
    · refine placed_standsAt ?_ entry hmem
      rw [NodePath.text_child]
      exact StandsAt.child h (by simp [hc])
    · have hc' : parent.children = (before ++ [node]) ++ rest := by simp [hc]
      -- The index counts the siblings in front.
      exact placedAll_standsAt h hc' entry (by simpa using hmem)

end

theorem exists_placedAll_of_mem (path : NodePath) {node : Node} {children : List Node}
    (h : node ∈ children) (index : Nat) :
    ∃ i, placed (path.child i node) node ⊆ placedAll path index children := by
  induction children generalizing index with
  | nil => simp at h
  | cons first rest ih =>
    rcases List.mem_cons.mp h with rfl | h
    · exact ⟨index, by simp [placedAll]⟩
    · obtain ⟨i, hi⟩ := ih h (index + 1)
      exact ⟨i, fun entry hentry => List.mem_append_right _ (hi hentry)⟩

/-- Every node of a tree is among its placed nodes. -/
theorem exists_placed {node root : Node} (h : node.IsIn root) :
    ∀ path, ∃ place, (place, node) ∈ root.placed path := by
  induction h with
  | root => exact fun path => ⟨path, by cases node; simp [placed]⟩
  | @child child parent hc _ ih =>
    intro path
    obtain ⟨component, props, events, children⟩ := parent
    -- Whatever lies below the child lies below its parent, behind the path of the child.
    obtain ⟨i, hi⟩ := exists_placedAll_of_mem path hc 0
    obtain ⟨place, hplace⟩ := ih (path.child i child)
    exact ⟨place, by rw [placed]; exact List.mem_cons_of_mem _ (hi hplace)⟩

mutual

/-- Nothing but the nodes of a tree is among its placed nodes. -/
theorem isIn_of_placed : ∀ {path : NodePath} {root : Node}, ∀ entry ∈ root.placed path,
    entry.2.IsIn root
  | path, ⟨component, props, events, children⟩, entry, hmem => by
    rcases List.mem_cons.mp hmem with rfl | hmem
    · exact .root
    · obtain ⟨child, hchild, hin⟩ := exists_isIn_of_placedAll entry hmem
      exact .child hchild hin

theorem exists_isIn_of_placedAll : ∀ {path : NodePath} {index : Nat} {children : List Node},
    ∀ entry ∈ placedAll path index children, ∃ child ∈ children, entry.2.IsIn child
  | path, index, node :: rest, entry, hmem => by
    rcases List.mem_append.mp hmem with hmem | hmem
    · exact ⟨node, List.mem_cons_self, isIn_of_placed entry hmem⟩
    · obtain ⟨child, hchild, hin⟩ := exists_isIn_of_placedAll entry hmem
      exact ⟨child, List.mem_cons_of_mem _ hchild, hin⟩

end

/-! ### The size of a tree -/

mutual

/-- A tree has as many nodes as it counts. -/
theorem length_placed (path : NodePath) : ∀ node : Node, (node.placed path).length = node.count
  | ⟨component, props, events, children⟩ => by
    rw [placed, count, List.length_cons, length_placedAll path 0 children, Nat.add_comm]

theorem length_placedAll (path : NodePath) (index : Nat) :
    ∀ children : List Node, (placedAll path index children).length = countAll children
  | [] => rfl
  | node :: rest => by
    rw [placedAll, countAll, List.length_append, length_placed, length_placedAll]

end

theorem length_steps_child (path : NodePath) (index : Nat) (node : Node) :
    (path.child index node).steps.length = path.steps.length + 1 :=
  List.length_append

mutual

/-- No node of a tree lies deeper than the tree has levels. -/
theorem length_steps_lt {path : NodePath} :
    ∀ {node : Node}, ∀ entry ∈ node.placed path,
      entry.1.steps.length < path.steps.length + node.depth
  | ⟨component, props, events, children⟩, entry, hmem => by
    rw [depth]
    rcases List.mem_cons.mp hmem with rfl | hmem
    · dsimp only
      omega
    · have hlt := length_steps_lt_all entry hmem
      omega

theorem length_steps_lt_all {path : NodePath} {index : Nat} :
    ∀ {children : List Node}, ∀ entry ∈ placedAll path index children,
      entry.1.steps.length < path.steps.length + 1 + depthOfAll children
  | node :: rest, entry, hmem => by
    rw [depthOfAll]
    rcases List.mem_append.mp hmem with hmem | hmem
    · have hlt := length_steps_lt entry hmem
      rw [length_steps_child] at hlt
      omega
    · have hlt := length_steps_lt_all entry hmem
      omega

end

mutual

/-- Some node lies at the deepest level of a tree. -/
theorem exists_deepest : ∀ (path : NodePath) (node : Node), ∃ entry ∈ node.placed path,
      entry.1.steps.length + 1 = path.steps.length + node.depth
  | path, ⟨component, props, events, children⟩ => by
    rw [placed, depth]
    by_cases hchildren : children = []
    · refine ⟨_, List.mem_cons_self, ?_⟩
      rw [hchildren]
      rfl
    · obtain ⟨entry, hmem, hentry⟩ := exists_deepest_all path 0 children hchildren
      exact ⟨entry, List.mem_cons_of_mem _ hmem, by omega⟩

theorem exists_deepest_all : ∀ (path : NodePath) (index : Nat) (children : List Node),
      children ≠ [] → ∃ entry ∈ placedAll path index children,
        entry.1.steps.length = path.steps.length + depthOfAll children
  | path, index, node :: rest, _ => by
    obtain ⟨entry, hmem, hentry⟩ := exists_deepest (path.child index node) node
    rw [length_steps_child] at hentry
    rw [placedAll, depthOfAll]
    by_cases hrest : depthOfAll rest ≤ node.depth
    · exact ⟨entry, List.mem_append_left _ hmem, by omega⟩
    · -- Something further on lies deeper, so there is something.
      have hne : rest ≠ [] := by
        rintro rfl
        exact hrest (Nat.zero_le _)
      obtain ⟨entry', hmem', hentry'⟩ := exists_deepest_all path (index + 1) rest hne
      exact ⟨entry', List.mem_append_right _ hmem', by omega⟩

end

end Node

end Pagewright
