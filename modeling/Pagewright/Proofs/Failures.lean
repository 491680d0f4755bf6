/-
Everything that can be wrong with a page.

* `Page.render_reports` — the sources of a page are refused with the first of
  its failures: violations, then fields that cannot be held, then defects;
* `Page.isOfPage_of_render` — none of them has to do with other pages or with
  files.
-/
import Pagewright.Proofs.Defects
import Pagewright.Proofs.Violations
import Pagewright.Sources

namespace Pagewright

variable {page : Page} {registry : Registry} {settings : Settings}

/-- What is wrong with a field. -/
def Field.defects (field : Field) : List Failure :=
  match Kotlin.typeName? field.kind with
  | some _ => []
  | none => [.unsupportedFieldType field.name field.kind.name]

/-- What is wrong with a page. -/
def Page.failures (page : Page) (registry : Registry) (settings : Settings) : List Failure :=
  page.violations settings ++
    (page.state.fields.flatMap Field.defects ++ page.root.defects registry)

theorem Field.cell_reports (field : Field) : Reports field.cell field.defects := by
  rw [cell, defects]
  cases Kotlin.typeName? field.kind with
  | some type => exact reports_ok _
  | none => exact reports_error _ _

theorem Page.stateHolder_reports (page : Page) (settings : Settings) :
    Reports (page.stateHolder settings) (page.state.fields.flatMap Field.defects) :=
  (reports_mapM Field.cell_reports page.state.fields).map.map

/-- The sources of a page are refused with the first of its failures. -/
theorem Page.render_reports (page : Page) (registry : Registry) (settings : Settings) :
    Reports (page.render registry settings) (page.failures registry settings) := by
  rw [render, failures]
  refine (page.validate_reports settings).bind fun _ _ => ?_
  refine (page.stateHolder_reports settings).bind fun _ _ => ?_
  exact (page.view_reports registry settings).map

theorem exists_of_mem_repeatedNames {make : String → Failure} {names : List String}
    {failure : Failure} (h : failure ∈ repeatedNames make names) :
    ∃ name ∈ names, failure = make name := by
  rw [repeatedNames, List.mem_flatMap] at h
  obtain ⟨⟨name, index⟩, hmem, h⟩ := h
  dsimp only at h
  split at h
  · exact ⟨name, List.fst_mem_of_mem_zipIdx hmem, List.mem_singleton.mp h⟩
  · exact absurd h List.not_mem_nil

/-- Whether a failure is about what a single page says. -/
def Failure.IsOfPage : Failure → Prop
  | .unknownComponent _ _ | .unsupportedEvent _ _ | .unsupportedAction _ _
  | .unsupportedFieldType _ _ | .unknownActionTarget _ _ | .unknownScopeReference _ _
  | .duplicateField _ | .duplicateMethod _ | .duplicateArgument _ _ => True
  | .duplicatePage _ | .unsupportedRegistryVersion _ | .document _ _ | .storage _
  | .text _ => False

theorem isOfPage_of_mem_violations {failure : Failure} (h : failure ∈ page.violations settings) :
    failure.IsOfPage := by
  rw [Page.violations, List.mem_append, List.mem_append] at h
  rcases h with (h | h) | h
  · obtain ⟨field, -, rfl⟩ := exists_of_mem_repeatedNames h
    trivial
  · obtain ⟨method, -, rfl⟩ := exists_of_mem_repeatedNames h
    trivial
  · split at h
    · rw [Node.violations, List.mem_flatMap] at h
      obtain ⟨⟨path, node⟩, -, h⟩ := h
      dsimp only at h
      rw [Node.ownViolations, List.mem_append, List.mem_flatMap, List.mem_flatMap] at h
      rcases h with ⟨value, -, h⟩ | ⟨action, -, h⟩
      · rw [PageState.undeclared, List.mem_map] at h
        obtain ⟨member, -, rfl⟩ := h
        trivial
      · rw [PageState.untargeted] at h
        split at h
        · exact absurd h List.not_mem_nil
        · rw [List.mem_singleton.mp h]
          trivial
    · exact absurd h List.not_mem_nil

theorem isOfPage_of_mem_defects {failure : Failure} (h : failure ∈ page.root.defects registry) :
    failure.IsOfPage := by
  rw [Node.defects, List.mem_flatMap] at h
  obtain ⟨⟨path, node⟩, -, h⟩ := h
  dsimp only at h
  rw [Node.ownDefects, List.mem_append, List.mem_flatMap] at h
  rcases h with h | ⟨⟨event, index⟩, -, h⟩
  · split at h
    · exact absurd h List.not_mem_nil
    · rw [List.mem_singleton.mp h]
      trivial
  · dsimp only at h
    rw [Event.defects] at h
    split at h
    · rw [List.mem_singleton.mp h]
      trivial
    · split at h
      · rw [List.mem_singleton.mp h]
        trivial
      · rw [List.mem_flatMap] at h
        obtain ⟨action, -, h⟩ := h
        rw [Action.defects] at h
        split at h
        · exact absurd h List.not_mem_nil
        · rw [List.mem_singleton.mp h]
          trivial

/-- Whatever a page alone is refused for is something that it says. -/
theorem Page.isOfPage_of_render {failure : Failure}
    (h : page.render registry settings = .error failure) : failure.IsOfPage := by
  have hmem : failure ∈ page.failures registry settings :=
    List.mem_of_mem_head? (((page.render_reports registry settings).error_iff _).mp h)
  rw [failures, List.mem_append, List.mem_append] at hmem
  rcases hmem with hmem | hmem | hmem
  · exact isOfPage_of_mem_violations hmem
  · rw [List.mem_flatMap] at hmem
    obtain ⟨field, -, hmem⟩ := hmem
    rw [Field.defects] at hmem
    split at hmem
    · exact absurd hmem List.not_mem_nil
    · rw [List.mem_singleton.mp hmem]
      trivial
  · exact isOfPage_of_mem_defects hmem

end Pagewright
