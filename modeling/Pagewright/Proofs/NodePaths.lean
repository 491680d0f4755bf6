/-
The path of a node leads to that node alone.

Component names stand in a path as they are, so a name may read like a further
step down.  Two nodes of one tree are told apart all the same.  Where their ways
part, the paths have been the same so far, and different indices follow, which
end at the next bracket.  If they do not part, one path goes on where the other
ends.

* `index_of_bracketed` — an index can be read off the text that it begins;
* `Node.exists_text_of_placed`, `Node.exists_text_of_placedAll` — how the path of
  a node goes on from that of a node above it;
* `Node.nodup_placed` — the paths of a tree are written differently;
* `Page.path_unique` — so the path of a failure tells which node it is about.
-/
import Mathlib.Data.List.Nodup
import Pagewright.Proofs.Defects
import Pagewright.Proofs.Violations
import Std.Data.String.ToNat

namespace Pagewright

/-! ### Indices -/

theorem bracket_not_mem_digits (index : Nat) : ']' ∉ (toString index).toList := by
  intro hmem
  have hdigits : ']' ∈ Nat.toDigits 10 index := by simpa using hmem
  have hdigit := Nat.isDigit_of_mem_toDigits (by omega) (by omega) hdigits
  simp at hdigit

/-- An index ends at the first bracket behind it. -/
theorem index_of_bracketed {index other : Nat} {rest rest' : String}
    (h : toString index ++ "]" ++ rest = toString other ++ "]" ++ rest') : index = other := by
  have hdigits : ∀ (number : Nat) (text : String),
      (toString number ++ "]" ++ text).toList.takeWhile (· != ']') = (toString number).toList := by
    intro number text
    have hne : ∀ c ∈ (toString number).toList, (c != ']') = true := by
      intro c hc
      have hbracket : c ≠ ']' := fun heq => bracket_not_mem_digits number (heq ▸ hc)
      simpa using hbracket
    rw [String.toList_append, String.toList_append, List.append_assoc,
      List.takeWhile_append_of_pos hne]
    show (toString number).toList ++ [] = _
    rw [List.append_nil]
  have hsame : (toString index).toList = (toString other).toList := by
    rw [← hdigits index rest, h, hdigits]
  exact Nat.repr_injective (String.toList_inj.mp hsame)

/-! ### Paths below a path -/

namespace Node

mutual

/-- The path of a node in a tree begins with the path of the tree. -/
theorem exists_text_of_placed : ∀ {path : NodePath} {root : Node}, ∀ entry ∈ root.placed path,
    ∃ below, entry.1.text = path.text ++ below
  | path, ⟨component, props, events, children⟩, entry, hmem => by
    rcases List.mem_cons.mp hmem with rfl | hmem
    · exact ⟨"", String.append_empty.symm⟩
    · obtain ⟨index, below, -, htext⟩ := exists_text_of_placedAll entry hmem
      exact ⟨_, htext⟩

/-- Below a node, the path goes on with the index of a child. -/
theorem exists_text_of_placedAll : ∀ {path : NodePath} {first : Nat} {children : List Node},
    ∀ entry ∈ placedAll path first children, ∃ index below, first ≤ index ∧
      entry.1.text = path.text ++ ("/children[" ++ (toString index ++ "]" ++ below))
  | path, first, node :: rest, entry, hmem => by
    rcases List.mem_append.mp hmem with hmem | hmem
    · obtain ⟨below, htext⟩ := exists_text_of_placed entry hmem
      refine ⟨first, ":" ++ node.component ++ below, Nat.le_refl first, ?_⟩
      rw [htext, NodePath.text_child]
      simp only [String.append_assoc]
      rfl
    · obtain ⟨index, below, hle, htext⟩ := exists_text_of_placedAll entry hmem
      exact ⟨index, below, by omega, htext⟩

end

mutual

/-- **The paths of the nodes of a tree are written differently.** -/
theorem nodup_placed : ∀ (path : NodePath) (root : Node),
    ((root.placed path).map fun entry => entry.1.text).Nodup
  | path, ⟨component, props, events, children⟩ => by
    rw [placed, List.map_cons, List.nodup_cons]
    refine ⟨?_, nodup_placedAll path 0 children⟩
    intro hmem
    obtain ⟨entry, hentry, htext⟩ := List.mem_map.mp hmem
    -- The path of a node further down is longer.
    obtain ⟨index, below, -, hbelow⟩ := exists_text_of_placedAll entry hentry
    rw [hbelow] at htext
    have hlength := congrArg String.length htext
    simp at hlength

theorem nodup_placedAll : ∀ (path : NodePath) (first : Nat) (children : List Node),
    ((placedAll path first children).map fun entry => entry.1.text).Nodup
  | path, first, [] => List.nodup_nil
  | path, first, node :: rest => by
    rw [placedAll, List.map_append, List.nodup_append]
    refine ⟨nodup_placed _ node, nodup_placedAll path (first + 1) rest, ?_⟩
    intro text hmem text' hmem' heq
    obtain ⟨entry, hentry, rfl⟩ := List.mem_map.mp hmem
    obtain ⟨entry', hentry', rfl⟩ := List.mem_map.mp hmem'
    -- The ways part here: one goes through this child, the other through a later one.
    obtain ⟨below, htext⟩ := exists_text_of_placed entry hentry
    obtain ⟨index, below', hle, htext'⟩ := exists_text_of_placedAll entry' hentry'
    have hparted : path.text ++ ("/children[" ++
          (toString first ++ "]" ++ (":" ++ node.component ++ below)))
        = path.text ++ ("/children[" ++ (toString index ++ "]" ++ below')) := by
      rw [← htext', ← heq, htext, NodePath.text_child]
      simp only [String.append_assoc]
      rfl
    have hindex : first = index :=
      index_of_bracketed ((String.append_right_inj _).mp ((String.append_right_inj _).mp hparted))
    omega

end

end Node

/-! ### The place of a failure -/

/-- The path that a failure carries. -/
def Failure.path? : Failure → Option NodePath
  | .unknownComponent _ path | .unsupportedEvent _ path | .unsupportedAction _ path
  | .unknownActionTarget _ path | .unknownScopeReference _ path | .duplicateArgument _ path =>
    some path
  | _ => none

variable {registry : Registry} {state : PageState} {path : NodePath} {node : Node}
  {failure : Failure}

theorem Action.path?_of_mem_defects {action : Action} (h : failure ∈ action.defects path) :
    failure.path? = some path := by
  rw [defects] at h
  split at h
  · simp at h
  · rw [List.mem_singleton.mp h]
    rfl

theorem Event.path?_of_mem_defects {event : Event} {taken : List String}
    (h : failure ∈ event.defects registry path taken) : failure.path? = some path := by
  rw [defects] at h
  split at h
  · rw [List.mem_singleton.mp h]
    rfl
  · split at h
    · rw [List.mem_singleton.mp h]
      rfl
    · obtain ⟨action, -, haction⟩ := List.mem_flatMap.mp h
      exact Action.path?_of_mem_defects haction

theorem Node.path?_of_mem_ownDefects (h : failure ∈ node.ownDefects registry path) :
    failure.path? = some path := by
  rw [ownDefects, List.mem_append, List.mem_flatMap] at h
  rcases h with h | ⟨⟨event, index⟩, -, hevent⟩
  · split at h
    · simp at h
    · rw [List.mem_singleton.mp h]
      rfl
  · exact Event.path?_of_mem_defects hevent

theorem Node.path?_of_mem_ownViolations (h : failure ∈ node.ownViolations state path) :
    failure.path? = some path := by
  rw [ownViolations, List.mem_append, List.mem_flatMap, List.mem_flatMap] at h
  rcases h with ⟨value, -, h⟩ | ⟨action, -, h⟩
  · obtain ⟨member, -, rfl⟩ := List.mem_map.mp h
    rfl
  · rw [PageState.untargeted] at h
    split at h
    · simp at h
    · rw [List.mem_singleton.mp h]
      rfl

theorem repeatedNames_path? {make : String → Failure} {names : List String}
    (hmake : ∀ name, (make name).path? = none) (h : failure ∈ repeatedNames make names) :
    failure.path? = none := by
  rw [repeatedNames, List.mem_flatMap] at h
  obtain ⟨⟨name, index⟩, -, h⟩ := h
  dsimp only at h
  split at h
  · rw [List.mem_singleton.mp h, hmake]
  · simp at h

/-- A failure of validation with a path is a violation of the node there. -/
theorem Page.exists_of_validate_error {page : Page} {settings : Settings}
    (h : page.validate settings = .error failure) (hpath : failure.path? = some path) :
    ∃ node, (path, node) ∈ page.root.placed (.ofRoot page.root) ∧
      failure ∈ node.ownViolations page.state path := by
  have hmem := List.mem_of_mem_head? (((page.validate_reports settings).error_iff failure).mp h)
  rw [violations, List.mem_append, List.mem_append] at hmem
  rcases hmem with (hmem | hmem) | hmem
  · rw [repeatedNames_path? (fun name => rfl) hmem] at hpath
    simp at hpath
  · rw [repeatedNames_path? (fun name => rfl) hmem] at hpath
    simp at hpath
  · split at hmem
    · obtain ⟨⟨place, node⟩, hplaced, hnode⟩ := List.mem_flatMap.mp hmem
      obtain rfl : place = path := by
        simpa [Node.path?_of_mem_ownViolations hnode] using hpath
      exact ⟨node, hplaced, hnode⟩
    · simp at hmem

/-- A failure of a view with a path is a defect of the node there. -/
theorem Page.exists_of_view_error {page : Page} {settings : Settings}
    (h : page.view registry settings = .error failure) (hpath : failure.path? = some path) :
    ∃ node, (path, node) ∈ page.root.placed (.ofRoot page.root) ∧
      failure ∈ node.ownDefects registry path := by
  have hmem := List.mem_of_mem_head?
    (((page.view_reports registry settings).error_iff failure).mp h)
  obtain ⟨⟨place, node⟩, hplaced, hnode⟩ := List.mem_flatMap.mp hmem
  obtain rfl : place = path := by
    simpa [Node.path?_of_mem_ownDefects hnode] using hpath
  exact ⟨node, hplaced, hnode⟩

/-- **A path leads to one node.**  A tree has as many differently written paths
as it has nodes, whatever its components are called.  So where validation or the
view fails at a path, the node that is at fault stands there and no other node
of the tree does. -/
theorem Page.path_unique (page : Page) (registry : Registry) (settings : Settings) :
    ((page.root.placed (.ofRoot page.root)).map fun entry => entry.1.text).Nodup ∧
    (page.root.placed (.ofRoot page.root)).length = page.root.count ∧
    ∀ failure path,
      (page.validate settings = .error failure ∨ page.view registry settings = .error failure) →
      failure.path? = some path →
      ∃ node, (path, node) ∈ page.root.placed (.ofRoot page.root) ∧
        (failure ∈ node.ownViolations page.state path ∨ failure ∈ node.ownDefects registry path) ∧
        ∀ entry ∈ page.root.placed (.ofRoot page.root),
          entry.1.text = path.text → entry = (path, node) := by
  have hnodup := Node.nodup_placed (.ofRoot page.root) page.root
  refine ⟨hnodup, Node.length_placed _ page.root, ?_⟩
  intro failure path hfailure hpath
  obtain ⟨node, hplaced, hfault⟩ : ∃ node, (path, node) ∈ page.root.placed (.ofRoot page.root) ∧
      (failure ∈ node.ownViolations page.state path
        ∨ failure ∈ node.ownDefects registry path) := by
    rcases hfailure with hfailure | hfailure
    · obtain ⟨node, hplaced, hviolation⟩ := exists_of_validate_error hfailure hpath
      exact ⟨node, hplaced, .inl hviolation⟩
    · obtain ⟨node, hplaced, hdefect⟩ := exists_of_view_error hfailure hpath
      exact ⟨node, hplaced, .inr hdefect⟩
  exact ⟨node, hplaced, hfault, fun entry hentry htext =>
    List.inj_on_of_nodup_map hnodup hentry hplaced htext⟩

/-- A page with an icon inside a text, and beside that text a component whose
name reads like the way to an icon. -/
def mazePage : Page where
  root := ({ component := "Column" } : Node)
    |>.withChild (({ component := "Text" } : Node).withChild { component := "Icon" })
    |>.withChild { component := "Text/children[0]:Icon" }

/-- Neither of the two can be generated.  The failure is about the icon, and the
path that it names leads there only. -/
theorem mazePage_path_unique :
    mazePage.view .compose {}
      = .error (.unknownComponent "Icon" ⟨"Column", [(0, "Text"), (0, "Icon")]⟩) ∧
    (NodePath.mk "Column" [(0, "Text"), (0, "Icon")]).text
      = "Column/children[0]:Text/children[0]:Icon" ∧
    (mazePage.root.placed (.ofRoot mazePage.root)).map (fun entry => entry.1.text)
      = ["Column", "Column/children[0]:Text", "Column/children[0]:Text/children[0]:Icon",
        "Column/children[1]:Text/children[0]:Icon"] ∧
    ∃ node, (⟨"Column", [(0, "Text"), (0, "Icon")]⟩, node)
        ∈ mazePage.root.placed (.ofRoot mazePage.root) ∧
      ∀ entry ∈ mazePage.root.placed (.ofRoot mazePage.root),
        entry.1.text = "Column/children[0]:Text/children[0]:Icon" →
        entry = (⟨"Column", [(0, "Text"), (0, "Icon")]⟩, node) := by
  have htext : (NodePath.mk "Column" [(0, "Text"), (0, "Icon")]).text
      = "Column/children[0]:Text/children[0]:Icon" := by decide +kernel
  have hview : mazePage.view .compose {}
      = .error (.unknownComponent "Icon" ⟨"Column", [(0, "Text"), (0, "Icon")]⟩) :=
    ((mazePage.view_reports .compose {}).error_iff _).mpr (by decide +kernel)
  obtain ⟨-, -, hunique⟩ := mazePage.path_unique .compose {}
  obtain ⟨node, hplaced, -, honly⟩ := hunique _ _ (.inr hview) rfl
  refine ⟨hview, htext, by decide +kernel, node, hplaced, ?_⟩
  rw [← htext]
  exact honly

end Pagewright
