/-
What a view imports.

* `Kotlin.mem_sortedNames`, `Kotlin.pairwise_sortedNames` — sorted names are
  those that are given, in strictly ascending order;
* `Kotlin.imports_congr` — so they depend on nothing but which names there are;
* `Node.targets_of_resolve` — the calls of a tree have the targets of its
  components, in pre-order;
* `Page.view_eq_ok_iff` — a view consists of a head that imports these targets, the
  lines of the calls, and a closing brace.
-/
import Pagewright.Proofs.View.Resolving

namespace Pagewright

/-! ### Sorted names -/

namespace Kotlin

theorem mem_insertName {name other : String} {names : List String} :
    other ∈ insertName name names ↔ other = name ∨ other ∈ names := by
  induction names with
  | nil => simp [insertName]
  | cons first rest ih =>
    rw [insertName]
    split
    · exact List.mem_cons
    · split
      · rw [List.mem_cons, ih, List.mem_cons, or_left_comm]
      · -- A name that comes neither before nor after another one is the same.
        next hnot hnot' =>
        obtain rfl : name = first :=
          String.le_antisymm (String.not_lt.mp hnot') (String.not_lt.mp hnot)
        rw [List.mem_cons, ← or_assoc, or_self]

theorem pairwise_insertName {name : String} {names : List String} (h : names.Pairwise (· < ·)) :
    (insertName name names).Pairwise (· < ·) := by
  induction names with
  | nil => exact List.pairwise_singleton _ name
  | cons first rest ih =>
    obtain ⟨hfirst, hrest⟩ := List.pairwise_cons.mp h
    rw [insertName]
    split
    · next hlt =>
      refine List.pairwise_cons.mpr ⟨fun other hmem => ?_, h⟩
      rcases List.mem_cons.mp hmem with rfl | hmem
      · exact hlt
      · exact String.lt_trans hlt (hfirst other hmem)
    · split
      · next hlt =>
        refine List.pairwise_cons.mpr ⟨fun other hmem => ?_, ih hrest⟩
        rcases mem_insertName.mp hmem with rfl | hmem
        · exact hlt
        · exact hfirst other hmem
      · exact h

theorem mem_sortedNames {name : String} {names : List String} :
    name ∈ sortedNames names ↔ name ∈ names := by
  induction names with
  | nil => exact Iff.rfl
  | cons first rest ih =>
    rw [sortedNames, List.foldr_cons, mem_insertName, List.mem_cons]
    exact or_congr_right ih

theorem pairwise_sortedNames (names : List String) : (sortedNames names).Pairwise (· < ·) := by
  induction names with
  | nil => exact .nil
  | cons first rest ih => exact pairwise_insertName ih

/-- Import lines depend on nothing but which names are imported. -/
theorem imports_congr {names names' : List String} (h : ∀ name, name ∈ names ↔ name ∈ names') :
    imports names = imports names' := by
  have hnodup (names : List String) : (sortedNames names).Nodup :=
    (pairwise_sortedNames names).imp fun {name name'} hlt => by
      rintro rfl
      exact String.lt_irrefl name hlt
  have hperm : (sortedNames names).Perm (sortedNames names') :=
    (List.perm_ext_iff_of_nodup (hnodup names) (hnodup names')).mpr fun name => by
      rw [mem_sortedNames, mem_sortedNames, h]
  -- Only one order is ascending.
  have hsorted : sortedNames names = sortedNames names' :=
    hperm.eq_of_pairwise (fun _ _ _ _ hlt hgt => absurd hgt (String.lt_asymm hlt))
      (pairwise_sortedNames names) (pairwise_sortedNames names')
  rw [imports, imports, hsorted]

end Kotlin

/-! ### Targets -/

variable {registry : Registry}

/-- The target of a component. -/
def Registry.target? (registry : Registry) (component : String) : Option String :=
  (registry.component? component).map Construct.target

namespace Node

/-- The targets of the components of a tree, in pre-order. -/
def targets (registry : Registry) (root : Node) : List String :=
  (root.placed (.ofRoot root)).filterMap fun (_, node) => registry.target? node.component

theorem mem_targets {root : Node} {target : String} :
    target ∈ root.targets registry ↔
      ∃ node : Node, node.IsIn root ∧ registry.target? node.component = some target := by
  rw [targets, List.mem_filterMap]
  constructor
  · rintro ⟨⟨path, node⟩, hmem, htarget⟩
    exact ⟨node, isIn_of_placed _ hmem, htarget⟩
  · rintro ⟨node, hnode, htarget⟩
    obtain ⟨path, hmem⟩ := exists_placed hnode (.ofRoot root)
    exact ⟨(path, node), hmem, htarget⟩

mutual

/-- The calls of a tree have the targets of its components. -/
theorem targets_of_resolve : ∀ {path : NodePath} {node : Node} {call : Call},
    node.resolve registry path = .ok call →
    call.targets = (node.placed path).filterMap fun (_, inside) =>
      registry.target? inside.component
  | path, ⟨component, props, events, children⟩, call, hcall => by
    obtain ⟨construct, callbacks, calls, hconstruct, -, hcalls, rfl⟩ := resolve_ok hcall
    have htarget : registry.target? component = some construct.target := by
      rw [Registry.target?, hconstruct]
      rfl
    rw [Call.targets, placed, List.filterMap_cons, targetsOfAll_of_resolveAll hcalls]
    dsimp only
    rw [htarget]

theorem targetsOfAll_of_resolveAll : ∀ {path : NodePath} {index : Nat} {children : List Node}
    {calls : List Call}, resolveAll registry path index children = .ok calls →
    Call.targetsOfAll calls = (placedAll path index children).filterMap fun (_, inside) =>
      registry.target? inside.component
  | path, index, [], calls, hcalls => by
    obtain rfl : [] = calls := Except.ok.inj hcalls
    rfl
  | path, index, node :: rest, calls, hcalls => by
    rw [resolveAll] at hcalls
    obtain ⟨call, hcall, hcalls⟩ := bind_eq_ok hcalls
    obtain ⟨later, hlater, hcalls⟩ := bind_eq_ok hcalls
    obtain rfl : call :: later = calls := Except.ok.inj hcalls
    rw [Call.targetsOfAll, placedAll, List.filterMap_append, targets_of_resolve hcall,
      targetsOfAll_of_resolveAll hlater]

end

theorem Resolves.targets_call {root : Node} (h : root.Resolves registry) :
    (root.call registry).targets = root.targets registry :=
  targets_of_resolve (h (.ofRoot root))

end Node

/-! ### The source of a view -/

/-- A view up to the line of its signature. -/
def viewHead (page : String) (settings : Settings) (imported : List String) : String :=
  Kotlin.header page settings.package? ++ Kotlin.imports imported
    ++ "@Composable\nfun " ++ Kotlin.viewFunction page ++ "(" ++ settings.binding ++ ": "
    ++ Kotlin.stateHolderType page ++ ") \x7b\n"

theorem viewHead_congr {imported imported' : List String}
    (h : ∀ target, target ∈ imported ↔ target ∈ imported') (page : String)
    (settings : Settings) :
    viewHead page settings imported = viewHead page settings imported' := by
  rw [viewHead, viewHead, Kotlin.imports_congr h]

/-- What a view imports: the annotation, and the targets of its components. -/
def Page.imported (page : Page) (registry : Registry) : List String :=
  composable :: page.root.targets registry

/-- A view is yielded exactly if the tree can be generated. -/
theorem Page.view_eq_ok_iff {page : Page} {settings : Settings} {source : String} :
    page.view registry settings = .ok source ↔
      page.root.Resolves registry ∧
      source = viewHead page.name settings (page.imported registry)
        ++ page.root.lines registry settings.binding 1 ++ "\x7d\n" := by
  constructor
  · intro h
    obtain ⟨call, hcall, h⟩ := bind_eq_ok h
    obtain rfl := Except.ok.inj h
    obtain ⟨hroot, rfl⟩ := Node.resolves_of_ok hcall
    refine ⟨hroot, ?_⟩
    rw [Page.imported, ← hroot.targets_call]
    rfl
  · rintro ⟨hroot, rfl⟩
    rw [view, hroot, Page.imported, ← hroot.targets_call]
    rfl

end Pagewright
