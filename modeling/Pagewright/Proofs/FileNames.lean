/-
Files of pages stay in their directory, and do not get in each other's way.

The files of a page are called by its name in Pascal case, and the ending
tells the two of them apart.  So pages have both files in common or neither
(`Kotlin.disjoint_files`), and the claims on state holders that a batch keeps
are enough to find every file that would be written twice.

* `Kotlin.component_holderFile`, `Kotlin.component_viewFile` — the names of files
  lead to entries of the directory they are put into;
* `generateBatch_duplicate_iff` — a page is refused as a duplicate exactly if
  it has a file in common with an earlier page.
-/
import Pagewright.Proofs.DryRun

namespace Pagewright

open Disk

variable {output : String} {registry : Registry} {settings : Settings} {page other : Page}
  {disk : Disk}

/-! ### Names as single components -/

theorem Kotlin.nul_not_mem_file {page suffix : String} (hs : '\x00' ∉ suffix.toList) :
    '\x00' ∉ (sourceFile (pascalCase page ++ suffix)).toList := by
  rw [toList_file, List.mem_append, List.mem_append]
  rintro (hmem | hmem | hmem)
  · exact absurd (digit_le_of_mem_pascalCase '\x00' hmem) (by decide)
  · exact hs hmem
  · exact absurd hmem (by decide)

theorem Kotlin.component_holderFile (page : String) : Path.Component (holderFile page) :=
  ⟨plain_holderFile page, nul_not_mem_file (by decide)⟩

theorem Kotlin.component_viewFile (page : String) : Path.Component (viewFile page) :=
  ⟨plain_viewFile page, nul_not_mem_file (by decide)⟩

/-- The path of a plain name below a directory leads right into the directory, if anywhere. -/
theorem Disk.place_of_findEntry_join {name : String} (hn : Path.Plain name) {place : Place}
    {entry : DiskEntry} (h : disk.findEntry (Path.join output name) = .ok (place, entry)) :
    ∃ home, disk.home output = some home ∧ place = home ++ [name] := by
  have hspot : some (place, entry)
      = (disk.spot output name).bind fun place => (disk.entryAt place).map (place, ·) := by
    rw [← toOption_findEntry_join hn, h]
    rfl
  obtain ⟨place', hplace', hentry⟩ := Option.bind_eq_some_iff.mp hspot.symm
  obtain ⟨entry', -, heq⟩ := Option.map_eq_some_iff.mp hentry
  obtain rfl : place' = place := congrArg Prod.fst heq
  rw [spot] at hplace'
  split_ifs at hplace'
  obtain ⟨home, hhome, rfl⟩ := Option.map_eq_some_iff.mp hplace'
  exact ⟨home, hhome, rfl⟩

/-! ### Files in common -/

namespace Kotlin

/-- The names of the files of a page. -/
def files (page : String) : List String :=
  [holderFile page, viewFile page]

theorem component_of_mem_files {page file : String} (h : file ∈ files page) :
    Path.Component file := by
  rcases List.mem_pair.mp h with rfl | rfl
  · exact component_holderFile page
  · exact component_viewFile page

/-- Pages have no file in common unless their names are the same in Pascal case. -/
theorem disjoint_files {other page : String} :
    (files other).Disjoint (files page) ↔ pascalCase other ≠ pascalCase page := by
  constructor
  · intro h heq
    exact h List.mem_cons_self (holderFile_inj.mpr heq ▸ List.mem_cons_self)
  · intro hne file hother hpage
    rcases List.mem_pair.mp hother with rfl | rfl <;> rcases List.mem_pair.mp hpage with h | h
    · exact hne (holderFile_inj.mp h)
    · exact holderFile_ne_viewFile _ _ h
    · exact holderFile_ne_viewFile _ _ h.symm
    · exact hne (viewFile_inj.mp h)

end Kotlin

/-! ### Refused pages -/

/-- A page by itself is not a duplicate. -/
theorem generateOne_ne_duplicatePage (dryRun : Bool) (page : Page) (disk : Disk) (name : String) :
    (generateOne (m := DiskM) output registry settings dryRun page disk).1
      ≠ .error (.duplicatePage name) := by
  intro h
  cases dryRun with
  | true =>
    have hrender : page.render registry settings = .error (.duplicatePage name) := map_eq_error h
    exact Page.isOfPage_of_render hrender
  | false =>
    exact generate_ne_duplicatePage page output registry settings disk name (map_eq_error h)

/-- A page of a batch is a duplicate exactly if its state holder has been
claimed, from the start or by an earlier page. -/
theorem generateUnclaimed_duplicate_iff {dryRun : Bool} {report : PageReport} :
    ∀ {pages : List Page} {claimed : List String} {disk : Disk} {i : Nat},
      pages[i]? = some page →
      (generateUnclaimed (m := DiskM) output registry settings dryRun claimed pages disk).1[i]?
        = some report →
      ((∃ name, report.outcome = .error (.duplicatePage name)) ↔
        Kotlin.stateHolderType page.name ∈ claimed ∨ Repeats pages i page)
  | [], _, _, i, hpage, _ => by simp at hpage
  | first :: pages, claimed, disk, 0, hpage, hreport => by
    obtain rfl : first = page := by simpa using hpage
    have hnone : ¬Repeats (first :: pages) 0 first := by
      rintro ⟨j, hj, -⟩
      exact absurd hj (Nat.not_lt_zero j)
    by_cases hclaimed : Kotlin.stateHolderType first.name ∈ claimed
    · rw [generateUnclaimed_of_claimed hclaimed, List.getElem?_cons_zero] at hreport
      rw [← Option.some.inj hreport]
      exact ⟨fun _ => .inl hclaimed, fun _ => ⟨first.name, rfl⟩⟩
    · rw [generateUnclaimed_next hclaimed, List.getElem?_cons_zero] at hreport
      rw [← Option.some.inj hreport]
      refine ⟨fun ⟨name, hname⟩ => ?_, fun h => ?_⟩
      · exact absurd hname (generateOne_ne_duplicatePage dryRun first disk name)
      · exact absurd (h.resolve_left hclaimed) hnone
  | first :: pages, claimed, disk, i + 1, hpage, hreport => by
    have hpage' : pages[i]? = some page := by simpa using hpage
    -- Later pages find the claim of the first one, whatever has become of it.
    have hlater : (Kotlin.stateHolderType page.name ∈ Kotlin.stateHolderType first.name :: claimed
          ∨ Repeats pages i page) ↔
        (Kotlin.stateHolderType page.name ∈ claimed ∨ Repeats (first :: pages) (i + 1) page) := by
      rw [List.mem_cons, repeats_succ, eq_comm, Kotlin.stateHolderType_inj, or_assoc,
        or_left_comm]
    rw [← hlater]
    by_cases hclaimed : Kotlin.stateHolderType first.name ∈ claimed
    · rw [generateUnclaimed_of_claimed hclaimed, List.getElem?_cons_succ] at hreport
      exact generateUnclaimed_duplicate_iff hpage' hreport
    · rw [generateUnclaimed_next hclaimed, List.getElem?_cons_succ] at hreport
      exact generateUnclaimed_duplicate_iff hpage' hreport

/-- **Claims on state holders find every file that would be written twice.** -/
theorem generateBatch_duplicate_iff {dryRun : Bool} {pages : List Page} {i : Nat}
    {report : PageReport} (hpage : pages[i]? = some page)
    (hreport : (generateBatch (m := DiskM) pages output registry settings dryRun disk).1[i]?
      = some report) :
    (∃ name, report.outcome = .error (.duplicatePage name)) ↔
      ∃ j < i, ∃ other, pages[j]? = some other ∧
          ¬(Kotlin.files other.name).Disjoint (Kotlin.files page.name) := by
  rw [generateUnclaimed_duplicate_iff hpage hreport, or_iff_right List.not_mem_nil, Repeats]
  simp only [Kotlin.disjoint_files, not_not]

/-- **Files of pages stay inside the output directory and never collide by
kind.**  Their names are single components, so that their paths lead right into
the directory, on any disk and if anywhere; no state holder is in the file of a
view; and pages share the one file exactly if they share the other, and exactly
if their names are the same in Pascal case.  A batch therefore refuses a page
exactly if a file of it is one of an earlier page. -/
theorem files_inside_and_apart (a b : String) (page : Page) (pages : List Page) (output : String)
    (registry : Registry) (settings : Settings) (dryRun : Bool) (disk : Disk) :
    (∀ sources, page.render registry settings = .ok sources →
      [sources.stateHolder.name, sources.view.name] = Kotlin.files page.name) ∧
    (∀ file ∈ Kotlin.files a,
      file ≠ "" ∧ file ≠ "." ∧ file ≠ ".." ∧ '/' ∉ file.toList ∧ '\x00' ∉ file.toList ∧
      Path.names (Path.join output file) = Path.names output ++ [file] ∧
      ∀ place entry, disk.findEntry (Path.join output file) = .ok (place, entry) →
        ∃ home, disk.home output = some home ∧ place = home ++ [file]) ∧
    Kotlin.holderFile a ≠ Kotlin.viewFile b ∧
    (Kotlin.holderFile a = Kotlin.holderFile b ↔ Kotlin.viewFile a = Kotlin.viewFile b) ∧
    (Kotlin.viewFile a = Kotlin.viewFile b ↔ Kotlin.pascalCase a = Kotlin.pascalCase b) ∧
    ∀ (i : Nat) (page : Page) (report : PageReport), pages[i]? = some page →
      (generateBatch (m := DiskM) pages output registry settings dryRun disk).1[i]? = some report →
      ((∃ name, report.outcome = .error (.duplicatePage name)) ↔
        ∃ j < i, ∃ other, pages[j]? = some other ∧
          ¬(Kotlin.files other.name).Disjoint (Kotlin.files page.name)) := by
  refine ⟨fun sources hrender => ?_, fun file hfile => ?_, Kotlin.holderFile_ne_viewFile a b,
    Kotlin.holderFile_inj.trans Kotlin.viewFile_inj.symm, Kotlin.viewFile_inj,
    fun _ _ _ hpage hreport => generateBatch_duplicate_iff hpage hreport⟩
  · obtain ⟨-, -, -, hholder, hview⟩ := Page.render_eq_ok hrender
    rw [hholder, hview, Kotlin.files]
  · have hcomponent := Kotlin.component_of_mem_files hfile
    have hnonempty : file ≠ "" := by
      rintro rfl
      exact hcomponent.nonempty rfl
    exact ⟨hnonempty, hcomponent.here, hcomponent.up, hcomponent.slash, hcomponent.nul,
      Path.names_join output hcomponent.toIsName,
      fun _ _ => place_of_findEntry_join hcomponent.toPlain⟩

/-- A page whose name would lead out of the output directory. -/
def straightPage : Page :=
  { name := "../xList", root := { component := "Text" } }

/-- A page whose name would lead there by way of another directory, and is the same
in Pascal case. -/
def roundaboutPage : Page :=
  { name := "x/../list", root := { component := "Text" } }

/-- Of the two pages the second one is refused, as its files are those of the first. -/
theorem roundaboutPage_refused :
    ∃ report,
      (generateBatch (m := DiskM) [straightPage, roundaboutPage] "out" .compose {} false {}).1[1]?
        = some report ∧
      ∃ name, report.outcome = .error (.duplicatePage name) := by
  have hreport : (generateBatch (m := DiskM) [straightPage, roundaboutPage] "out" .compose {}
      false {}).1[1]?.isSome = true := by decide +kernel
  obtain ⟨report, hreport⟩ := Option.isSome_iff_exists.mp hreport
  obtain ⟨-, -, -, -, -, hrefused⟩ := files_inside_and_apart straightPage.name roundaboutPage.name
    straightPage [straightPage, roundaboutPage] "out" .compose {} false {}
  refine ⟨report, hreport, (hrefused 1 roundaboutPage report rfl hreport).mpr ?_⟩
  refine ⟨0, Nat.zero_lt_one, straightPage, rfl, fun hdisjoint => ?_⟩
  exact absurd (Kotlin.disjoint_files.mp hdisjoint) (by decide +kernel)

end Pagewright
