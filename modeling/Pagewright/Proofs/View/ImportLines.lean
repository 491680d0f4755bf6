/-
The import lines of a view.

A view imports the annotation of its function and the target of every component
of its tree, each of them once and in the order of their bytes, and nothing
else.

* `Kotlin.imports_cons` — imports are one line for each name and an empty line;
* `Node.exists_target` — in a tree that can be generated, every component has a
  target;
* `Page.view_importLines` — what a view imports.
-/
import Pagewright.Proofs.ByteOrder
import Pagewright.Proofs.View.CallSites

namespace Pagewright

variable {registry : Registry} {settings : Settings}

/-- Where there is a name, the imports are the lines of the sorted names. -/
theorem Kotlin.imports_cons (name : String) (names : List String) :
    imports (name :: names)
      = String.join ((sortedNames (name :: names)).map importLine) ++ "\n" := by
  rw [imports]
  split
  · -- The first name is among the sorted ones.
    rename_i hnil
    have hname : name ∈ sortedNames (name :: names) := mem_sortedNames.mpr List.mem_cons_self
    simp [hnil] at hname
  · rfl

theorem Kotlin.pairwise_bytes_sortedNames (names : List String) :
    (sortedNames names).Pairwise fun name later => Utf8.bytes name < Utf8.bytes later :=
  (pairwise_sortedNames names).imp Utf8.lt_iff_bytes_lt.mp

theorem Node.exists_target {root node : Node} (hroot : root.Resolves registry)
    (hnode : node.IsIn root) : ∃ target, registry.target? node.component = some target := by
  obtain ⟨address, haddress⟩ := isIn_iff_exists_at?.mp hnode
  refine ⟨(node.call registry).construct.target, ?_⟩
  rw [Registry.target?, (hroot.of_at? haddress).component?_eq]
  rfl

/-- **A view imports what its tree uses.**  Between the head of the file and the
function there is one import line for the annotation and for each target of a
component in the tree, at any depth, and no other; the targets ascend in the order
of their bytes, so that none comes twice. -/
theorem Page.view_importLines {page : Page} {source : String}
    (h : page.view registry settings = .ok source) :
    ∃ targets : List String,
      source = Kotlin.header page.name settings.package?
        ++ String.join (targets.map fun target => "import " ++ target ++ "\n")
        ++ "\n@Composable\nfun " ++ Kotlin.viewFunction page.name ++ "(" ++ settings.binding ++ ": "
        ++ Kotlin.stateHolderType page.name ++ ") \x7b\n"
        ++ page.root.lines registry settings.binding 1 ++ "\x7d\n" ∧
      targets.Pairwise (fun target later => Utf8.bytes target < Utf8.bytes later) ∧
      (∀ target, target ∈ targets ↔ target = "androidx.compose.runtime.Composable" ∨
        ∃ node : Node, node.IsIn page.root ∧ registry.target? node.component = some target) ∧
      ∀ node : Node, node.IsIn page.root →
        ∃ target ∈ targets, registry.target? node.component = some target := by
  obtain ⟨hroot, rfl⟩ := view_eq_ok_iff.mp h
  have hmem : ∀ target, target ∈ Kotlin.sortedNames (page.imported registry) ↔
      target = "androidx.compose.runtime.Composable" ∨
        ∃ node : Node, node.IsIn page.root ∧ registry.target? node.component = some target := by
    intro target
    rw [Kotlin.mem_sortedNames, imported, List.mem_cons, Node.mem_targets, composable]
  refine ⟨Kotlin.sortedNames (page.imported registry), ?_,
    Kotlin.pairwise_bytes_sortedNames _, hmem, ?_⟩
  · have hline : Kotlin.importLine = fun target => "import " ++ target ++ "\n" := rfl
    rw [viewHead, imported, Kotlin.imports_cons, hline]
    simp only [String.append_assoc]
    rfl
  · intro node hnode
    obtain ⟨target, htarget⟩ := Node.exists_target hroot hnode
    exact ⟨target, (hmem target).mpr (.inr ⟨node, hnode, htarget⟩), htarget⟩

/-- A vocabulary in which two components have the same target, and one of the
targets comes last by its bytes only: in UTF-16 it begins with a smaller unit than
the one before it. -/
def iconRegistry : Registry :=
  Registry.empty
    |>.withComponent "Box" "ui.Box"
    |>.withComponent "Frame" "ui.Box"
    |>.withComponent "Smile" "ui.😀"
    |>.withComponent "Ligature" "ui.ﬀ"
    |>.withComponent "Text" "ui.Text"

/-- A page with the same icon in two places. -/
def iconPage : Page where
  name := "icons"
  root := ({ component := "Box" } : Node)
    |>.withChild { component := "Smile" }
    |>.withChild (({ component := "Frame" } : Node)
      |>.withChild { component := "Smile" }
      |>.withChild { component := "Ligature" })

/-- The view of the page imports the icon that it shows twice, and not the text
that it does not show. -/
theorem iconPage_importLines :
    ∃ (source : String) (targets : List String),
      iconPage.view iconRegistry {} = .ok source ∧
      source = Kotlin.header "icons" none
        ++ String.join (targets.map fun target => "import " ++ target ++ "\n")
        ++ "\n@Composable\nfun " ++ "IconsView" ++ "(" ++ "viewModel" ++ ": "
        ++ "IconsStateHolder" ++ ") \x7b\n"
        ++ iconPage.root.lines iconRegistry "viewModel" 1 ++ "\x7d\n" ∧
      targets.Pairwise (fun target later => Utf8.bytes target < Utf8.bytes later) ∧
      (∀ target ∈ ["androidx.compose.runtime.Composable", "ui.Box", "ui.ﬀ", "ui.😀"],
        target ∈ targets) ∧
      "ui.Text" ∉ targets ∧
      source = "// Generated by pagegen from page `icons`. Do not edit.\n\n"
        ++ "import androidx.compose.runtime.Composable\n"
        ++ "import ui.Box\n" ++ "import ui.ﬀ\n" ++ "import ui.😀\n"
        ++ "\n@Composable\nfun IconsView(viewModel: IconsStateHolder) \x7b\n"
        ++ "    Box \x7b\n        😀()\n        Box \x7b\n            😀()\n            ﬀ()\n"
        ++ "        \x7d\n    \x7d\n\x7d\n" := by
  obtain ⟨source, hview⟩ : ∃ source, iconPage.view iconRegistry {} = .ok source :=
    (iconPage.view_reports iconRegistry {}).ok_iff.mpr (by decide +kernel)
  have hholder : Kotlin.stateHolderType "icons" = "IconsStateHolder" := by decide +kernel
  have hfunction : Kotlin.viewFunction "icons" = "IconsView" := by decide +kernel
  obtain ⟨targets, hsource, hpairwise, hmem, -⟩ := Page.view_importLines hview
  have hused : ∀ target, target ∈ targets ↔ target ∈ iconPage.imported iconRegistry := by
    intro target
    rw [hmem, Page.imported, List.mem_cons, Node.mem_targets, composable]
  have hshown : ∀ target ∈ ["androidx.compose.runtime.Composable", "ui.Box", "ui.ﬀ", "ui.😀"],
      target ∈ iconPage.imported iconRegistry := by decide +kernel
  have hhidden : "ui.Text" ∉ iconPage.imported iconRegistry := by decide +kernel
  rw [← hholder, ← hfunction]
  refine ⟨source, targets, hview, hsource, hpairwise,
    fun target htarget => (hused target).mpr (hshown target htarget),
    mt (hused "ui.Text").mp hhidden, ?_⟩
  have htext := congrArg Except.toOption hview
  refine Option.some.inj (htext.symm.trans ?_)
  decide +kernel

end Pagewright
