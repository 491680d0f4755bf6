/-
What the names at call sites of a view stand for.

Call sites use the last part of a target, and so does every other call of a
target with the same last part.  Nothing is done about that when a view is
made, so it depends on the registry:

* `Registry.unambiguous_iff` — the call sites of all views are clear if and
  only if no two targets of the registry share their last part;
* `nestedPage_not_clear` — two components of one page whose call sites cannot be
  told apart.
-/
import Pagewright.Proofs.View.Subtrees

namespace Pagewright

/-- No two targets have the same name at call sites. -/
def Unambiguous (targets : List String) : Prop :=
  ∀ target ∈ targets, ∀ other ∈ targets,
    (Construct.mk target).simpleName = (Construct.mk other).simpleName → target = other

instance (targets : List String) : Decidable (Unambiguous targets) :=
  inferInstanceAs (Decidable (∀ target ∈ targets, ∀ other ∈ targets,
    (Construct.mk target).simpleName = (Construct.mk other).simpleName → target = other))

/-- Among the targets that are imported, a name at call sites stands for one
target and no other. -/
def Denotes (imported : List String) (name target : String) : Prop :=
  ∀ other, other ∈ imported ∧ (Construct.mk other).simpleName = name ↔ other = target

theorem Unambiguous.denotes {imported : List String} (h : Unambiguous imported)
    {target : String} (htarget : target ∈ imported) :
    Denotes imported (Construct.mk target).simpleName target := by
  intro other
  constructor
  · rintro ⟨hother, hname⟩
    exact h other hother target htarget hname
  · rintro rfl
    exact ⟨htarget, rfl⟩

/-! ### Targets of a registry -/

/-- A map has the values that it finds. -/
theorem OrderedMap.mem_values_iff {α : Type} {map : OrderedMap α} {value : α} :
    value ∈ map.values ↔ ∃ name, map.find? name = some value := by
  rw [values, List.mem_map]
  constructor
  · rintro ⟨⟨name, value'⟩, hmem, rfl⟩
    obtain ⟨front, back, hentries⟩ := List.append_of_mem hmem
    refine ⟨name, List.lookup_eq_some_iff.mpr ⟨front, back, hentries, fun entry hentry => ?_⟩⟩
    -- The name is not there a second time.
    have hdistinct := map.distinct
    rw [hentries, List.map_append, List.nodup_append] at hdistinct
    exact bne_iff_ne.mpr (hdistinct.2.2 entry.1 (List.mem_map_of_mem hentry) name
      List.mem_cons_self).symm
  · rintro ⟨name, hname⟩
    obtain ⟨front, back, hentries, -⟩ := List.lookup_eq_some_iff.mp hname
    refine ⟨(name, value), ?_, rfl⟩
    rw [hentries]
    exact List.mem_append_right front List.mem_cons_self

/-- Everything that a view may import: the annotation, and the targets of all
components. -/
def Registry.targets (registry : Registry) : List String :=
  composable :: registry.components.values.map Construct.target

theorem Registry.mem_targets {registry : Registry} {target : String} :
    target ∈ registry.targets ↔
      target = composable ∨ ∃ component, registry.target? component = some target := by
  simp only [targets, List.mem_cons, List.mem_map, OrderedMap.mem_values_iff, target?,
    component?, Option.map_eq_some_iff]
  constructor
  · rintro (h | ⟨construct, ⟨component, hcomponent⟩, rfl⟩)
    · exact .inl h
    · exact .inr ⟨component, construct, hcomponent, rfl⟩
  · rintro (h | ⟨component, construct, hcomponent, rfl⟩)
    · exact .inl h
    · exact .inr ⟨construct, ⟨component, hcomponent⟩, rfl⟩

variable {registry : Registry} {settings : Settings}

theorem Page.imported_subset (page : Page) (registry : Registry) :
    page.imported registry ⊆ registry.targets := by
  intro target htarget
  rw [Registry.mem_targets]
  rcases List.mem_cons.mp htarget with rfl | htarget
  · exact .inl rfl
  · obtain ⟨node, -, hnode⟩ := Node.mem_targets.mp htarget
    exact .inr ⟨node.component, hnode⟩

/-! ### Call sites -/

/-- The lines of a call begin with the name of its construct. -/
theorem Call.exists_block (binding : String) (level : Nat) : ∀ call : Call, ∃ after,
    call.block binding level = Kotlin.indent level ++ call.construct.simpleName ++ after
  | ⟨construct, arguments, []⟩ =>
    ⟨argumentList binding level arguments ++ "\n", by simp only [block, String.append_assoc]⟩
  | ⟨construct, arguments, child :: rest⟩ =>
    ⟨(if arguments.isEmpty then "" else argumentList binding level arguments) ++ " \x7b\n"
        ++ block binding (level + 1) child ++ blocks binding (level + 1) rest
        ++ Kotlin.indent level ++ "\x7d\n",
      by simp only [block, String.append_assoc]⟩

theorem Node.Resolves.component?_eq {node : Node} (h : node.Resolves registry) :
    registry.component? node.component = some (node.call registry).construct := by
  obtain ⟨component, props, events, children⟩ := node
  obtain ⟨construct, callbacks, calls, hconstruct, -, -, hcall⟩ :=
    resolve_ok (h (.ofRoot ⟨component, props, events, children⟩))
  rw [hcall, hconstruct]

/-- The lines of every node stand in the view, at its level. -/
theorem Page.exists_lines {page : Page} {source : String}
    (h : page.view registry settings = .ok source) {address : List Nat} {node : Node}
    (hnode : page.root.at? address = some node) :
    node.Resolves registry ∧ ∃ before after,
      source = viewHead page.name settings (page.imported registry) ++ before
        ++ node.lines registry settings.binding (address.length + 1) ++ after := by
  obtain ⟨hroot, rfl⟩ := Page.view_eq_ok_iff.mp h
  have hresolves := hroot.of_at? hnode
  -- The node is found around itself.
  obtain ⟨before, after, hblock, -⟩ := (hresolves.graft hroot hnode).2.block settings.binding 1
  refine ⟨hresolves, before, after ++ "\x7d\n", ?_⟩
  rw [Node.lines, hblock, Nat.add_comm 1]
  simp only [Node.lines, String.append_assoc]

/-- The call sites of a view are clear: no two targets that it imports have the
same name, and the name that the lines of each node begin with stands for the
target of its component. -/
structure Page.IsClear (page : Page) (registry : Registry) (settings : Settings)
    (source : String) : Prop where
  unambiguous : Unambiguous (page.imported registry)
  callSites : ∀ address node, page.root.at? address = some node →
    ∃ construct before after rest, registry.component? node.component = some construct ∧
      source = viewHead page.name settings (page.imported registry) ++ before
        ++ node.lines registry settings.binding (address.length + 1) ++ after ∧
      node.lines registry settings.binding (address.length + 1)
        = Kotlin.indent (address.length + 1) ++ construct.simpleName ++ rest ∧
      Denotes (page.imported registry) construct.simpleName construct.target

theorem Page.isClear_of_unambiguous {page : Page} {source : String}
    (hview : page.view registry settings = .ok source)
    (h : Unambiguous (page.imported registry)) : page.IsClear registry settings source := by
  refine ⟨h, fun address node hnode => ?_⟩
  obtain ⟨hresolves, before, after, hsource⟩ := page.exists_lines hview hnode
  obtain ⟨rest, hlines⟩ := (node.call registry).exists_block settings.binding (address.length + 1)
  have htarget : (node.call registry).construct.target ∈ page.imported registry := by
    have hin : node.IsIn page.root := Node.isIn_iff_exists_at?.mpr ⟨address, hnode⟩
    refine List.mem_cons_of_mem _ (Node.mem_targets.mpr ⟨node, hin, ?_⟩)
    rw [Registry.target?, hresolves.component?_eq]
    rfl
  exact ⟨(node.call registry).construct, before, after, rest, hresolves.component?_eq, hsource,
    hlines, h.denotes htarget⟩

/-! ### Registries that keep call sites clear -/

/-- A page that shows one component inside another. -/
def nestedPage (outer inner : String) : Page where
  root := { component := outer, children := [{ component := inner }] }

/-- Nothing but its component and its children can keep a bare node from being
generated. -/
theorem Node.resolves_bare {component target : String} {children : List Node}
    (h : registry.target? component = some target)
    (hchildren : ∀ child ∈ children, child.Resolves registry) :
    ({ component := component, children := children } : Node).Resolves registry := by
  obtain ⟨construct, hconstruct, rfl⟩ := Option.map_eq_some_iff.mp h
  have hresolve : resolve registry ⟨component, []⟩ { component := component, children := children }
      = .ok ⟨construct, [], children.map (call registry)⟩ := by
    rw [resolve, hconstruct]
    dsimp only
    rw [resolveAll_eq_ok_iff.mpr ⟨hchildren, rfl⟩]
    rfl
  exact (resolves_of_ok hresolve).1

theorem nestedPage_imports {outer inner target target' : String}
    (houter : registry.target? outer = some target)
    (hinner : registry.target? inner = some target') :
    ∃ source, (nestedPage outer inner).view registry {} = .ok source ∧
      (nestedPage outer inner).imported registry = [composable, target, target'] := by
  have hinside : ({ component := inner } : Node).Resolves registry :=
    Node.resolves_bare hinner fun _ hmem => absurd hmem List.not_mem_nil
  have hroot : (nestedPage outer inner).root.Resolves registry :=
    Node.resolves_bare houter fun child hmem => List.mem_singleton.mp hmem ▸ hinside
  refine ⟨_, Page.view_eq_ok_iff.mpr ⟨hroot, rfl⟩, ?_⟩
  simp [Page.imported, Node.targets, nestedPage, Node.placed, Node.placedAll, houter, hinner]

/-- **Call sites are clear exactly if the targets of the registry have different
names.**  Then, and only then, no view imports two targets with the same name,
and the name at every call site stands for the target of its component. -/
theorem Registry.unambiguous_iff (registry : Registry) :
    Unambiguous registry.targets ↔
      ∀ (page : Page) (settings : Settings) (source : String),
        page.view registry settings = .ok source → page.IsClear registry settings source := by
  constructor
  · intro h page settings source hview
    have hsubset := page.imported_subset registry
    exact page.isClear_of_unambiguous hview fun target htarget other hother =>
      h target (hsubset htarget) other (hsubset hother)
  · intro h
    -- Two targets of components are imported by the page that shows one inside the other.
    have hpair : ∀ {outer inner target target' : String}, registry.target? outer = some target →
        registry.target? inner = some target' → Unambiguous [composable, target, target'] := by
      intro outer inner target target' houter hinner
      obtain ⟨source, hview, himported⟩ := nestedPage_imports houter hinner
      rw [← himported]
      exact (h _ _ _ hview).unambiguous
    intro target htarget other hother hname
    rcases mem_targets.mp htarget with rfl | ⟨outer, houter⟩
    · rcases mem_targets.mp hother with rfl | ⟨inner, hinner⟩
      · rfl
      · exact hpair hinner hinner composable (by simp) other (by simp) hname
    · rcases mem_targets.mp hother with rfl | ⟨inner, hinner⟩
      · exact hpair houter houter target (by simp) composable (by simp) hname
      · exact hpair houter hinner target (by simp) other (by simp) hname

example : Unambiguous Registry.compose.targets := by decide +kernel

/-- A vocabulary with two texts. -/
def textRegistry : Registry :=
  Registry.empty
    |>.withComponent "Text" "androidx.compose.material3.Text"
    |>.withComponent "OldText" "androidx.compose.material.Text"

/-- One text inside another: the view imports both and calls both by the same
name. -/
theorem nestedPage_not_clear :
    ∃ source, (nestedPage "OldText" "Text").view textRegistry {} = .ok source ∧
      "androidx.compose.material.Text" ∈ (nestedPage "OldText" "Text").imported textRegistry ∧
      "androidx.compose.material3.Text" ∈ (nestedPage "OldText" "Text").imported textRegistry ∧
      (Construct.mk "androidx.compose.material.Text").simpleName = "Text" ∧
      (Construct.mk "androidx.compose.material3.Text").simpleName = "Text" ∧
      ¬(nestedPage "OldText" "Text").IsClear textRegistry {} source := by
  have himported : (nestedPage "OldText" "Text").imported textRegistry
      = [composable, "androidx.compose.material.Text", "androidx.compose.material3.Text"] := by
    decide +kernel
  have hclash : ¬Unambiguous
      [composable, "androidx.compose.material.Text", "androidx.compose.material3.Text"] := by
    decide +kernel
  have hok : ((nestedPage "OldText" "Text").view textRegistry {}).isOk = true := by
    decide +kernel
  cases h : (nestedPage "OldText" "Text").view textRegistry {} with
  | error failure =>
    rw [h] at hok
    cases hok
  | ok source =>
    refine ⟨source, rfl, ?_, ?_, by decide +kernel, by decide +kernel, fun hclear => hclash ?_⟩
    · rw [himported]
      decide
    · rw [himported]
      decide
    · rw [← himported]
      exact hclear.unambiguous

end Pagewright
