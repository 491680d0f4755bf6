/-
Programs that do not depend on the working directory.

An operation on an absolute path finds the same entry wherever a disk starts
from.  `Anchored` says so of a program, and carries over from its parts to the
whole of it.  Loading and generating are anchored, if only the paths that they
are given are absolute:

* `anchored_extract`, `anchored_activeRegistry` — the pages and the table of a job;
* `anchored_emit` — writing the files of pages, with everything that happens on the way;
* `anchored_runJob` — so is a job.
-/
import Pagewright.CommandLine.Run
import Pagewright.Proofs.Directories
import Pagewright.Proofs.Loading
import Pagewright.Proofs.Report

namespace Pagewright

open CommandLine

variable {α β : Type}

/-- The disk, as it is seen from another working directory. -/
def Disk.startingAt (disk : Disk) (start : Place) : Disk :=
  { disk with start }

theorem Disk.startingAt_startingAt (disk : Disk) (start other : Place) :
    (disk.startingAt start).startingAt other = disk.startingAt other :=
  rfl

/-- A program that does the same from every working directory. -/
def Anchored (program : DiskM α) : Prop :=
  ∀ (disk : Disk) (start : Place), program (disk.startingAt start)
    = ((program disk).1, (program disk).2.startingAt start)

namespace Anchored

theorem pure (value : α) : Anchored (Pure.pure value : DiskM α) :=
  fun _ _ => rfl

/-- What comes after a program only has to be anchored for results that it yields. -/
theorem bind_of {first : DiskM α} {second : α → DiskM β} (hfirst : Anchored first)
    (hsecond : ∀ disk, Anchored (second (first disk).1)) : Anchored (first >>= second) := by
  intro disk start
  rw [DiskM.bind_apply, DiskM.bind_apply, hfirst disk start]
  exact hsecond disk (first disk).2 start

theorem bind {first : DiskM α} {second : α → DiskM β} (hfirst : Anchored first)
    (hsecond : ∀ value, Anchored (second value)) : Anchored (first >>= second) :=
  hfirst.bind_of fun _ => hsecond _

theorem map {first : DiskM α} (f : α → β) (h : Anchored first) :
    Anchored (do return f (← first)) :=
  h.bind fun value => pure (f value)

end Anchored

theorem anchored_ask {question : Disk → α}
    (h : ∀ disk start, question (disk.startingAt start) = question disk) :
    Anchored (DiskM.ask question) :=
  fun disk start => by rw [DiskM.ask, h disk start]; rfl

theorem anchored_change {step : Disk → Except StorageError Disk}
    (h : ∀ disk start, step (disk.startingAt start) = (step disk).map (·.startingAt start)) :
    Anchored (DiskM.change step) := by
  intro disk start
  rw [DiskM.change, DiskM.change, h disk start]
  cases step disk <;> rfl

/-! ### Absolute paths -/

namespace Path

theorem isAbsolute_of_mem_ancestors {path above : String} (h : isAbsolute path = true)
    (habove : above ∈ ancestors path) : isAbsolute above = true := by
  rw [ancestors_eq] at habove
  rcases List.mem_cons.mp habove with rfl | habove
  · exact h
  · obtain ⟨n, -, rfl⟩ := List.mem_map.mp habove
    rw [isAbsolute_upTo, h]

end Path

/-! ### Operations -/

namespace Disk

variable {disk : Disk} {path : String}

theorem follow_startingAt (start : Place) (names : List String) :
    ∀ place, (disk.startingAt start).follow place names = disk.follow place names := by
  induction names with
  | nil => exact fun _ => rfl
  | cons name names ih =>
    intro place
    rw [follow, follow, ih, ih]
    simp only [ih]
    rfl

section Absolute

variable (h : Path.isAbsolute path = true)

include h

theorem find_startingAt (disk : Disk) (start : Place) :
    (disk.startingAt start).find path = disk.find path := by
  rw [find, find, if_pos h, if_pos h, follow_startingAt]

theorem findEntry_startingAt (disk : Disk) (start : Place) :
    (disk.startingAt start).findEntry path = disk.findEntry path := by
  rw [findEntry, findEntry, find_startingAt h]

theorem anchored_kind : Anchored (FileSystem.kind? (m := DiskM) path) :=
  anchored_ask fun disk start => by rw [findEntry_startingAt h]

theorem anchored_read : Anchored (FileSystem.read (m := DiskM) path) :=
  anchored_ask fun disk start => by rw [Disk.read, Disk.read, findEntry_startingAt h]

theorem anchored_list : Anchored (FileSystem.list (m := DiskM) path) :=
  anchored_ask fun disk start => by
    rw [Disk.list, Disk.list, findEntry_startingAt h]
    rfl

theorem anchored_pathExists : Anchored (FileSystem.pathExists (m := DiskM) path) :=
  (anchored_kind h).map _

theorem anchored_isDirectory : Anchored (FileSystem.isDirectory (m := DiskM) path) :=
  (anchored_kind h).map _

theorem anchored_isFile : Anchored (FileSystem.isFile (m := DiskM) path) :=
  (anchored_kind h).map _

theorem anchored_makeDirectory : Anchored (FileSystem.makeDirectory (m := DiskM) path) := by
  refine anchored_change fun disk start => ?_
  rw [Disk.makeDirectory, Disk.makeDirectory, find_startingAt h]
  cases disk.find path with
  | error refusal => rfl
  | ok destination => cases destination <;> rfl

theorem write_startingAt (content : ByteArray) (disk : Disk) (start : Place) :
    (disk.startingAt start).write path content
      = (disk.write path content).map (·.startingAt start) := by
  rw [Disk.write, Disk.write, find_startingAt h]
  cases disk.find path with
  | error refusal => rfl
  | ok destination =>
    cases destination with
    | free place =>
      dsimp only [bind, Except.bind]
      split_ifs <;> rfl
    | entry place entry =>
      cases entry with
      | directory => rfl
      | file previous =>
        dsimp only [bind, Except.bind]
        split_ifs <;> rfl

theorem anchored_write (content : ByteArray) :
    Anchored (FileSystem.write (m := DiskM) path content) :=
  anchored_change (write_startingAt h content)

theorem anchored_remove : Anchored (FileSystem.remove (m := DiskM) path) := by
  refine anchored_change fun disk start => ?_
  rw [Disk.remove, Disk.remove, findEntry_startingAt h]
  cases disk.findEntry path with
  | error refusal => rfl
  | ok found =>
    obtain ⟨place, entry⟩ := found
    cases entry <;> rfl

theorem anchored_rename {target : String} (htarget : Path.isAbsolute target = true) :
    Anchored (FileSystem.rename (m := DiskM) path target) := by
  refine anchored_change fun disk start => ?_
  rw [Disk.rename, Disk.rename, findEntry_startingAt h]
  cases disk.findEntry path with
  | error refusal => rfl
  | ok found =>
    obtain ⟨place, entry⟩ := found
    cases entry with
    | directory => rfl
    | file content => exact write_startingAt htarget content (disk.erase place) start

/-- A new file in an absolute directory has a path below the directory. -/
theorem stagingPath_of_isAbsolute (disk : Disk) :
    disk.stagingPath path = Path.join path (freshName disk.lastNames) := by
  rw [stagingPath, Path.join_of_isAbsolute h]

theorem stage_startingAt (content : ByteArray) (disk : Disk) (start : Place) :
    (disk.startingAt start).stage path content
      = (disk.stage path content).map fun staged => (staged.1, staged.2.startingAt start) := by
  have hpath : (disk.startingAt start).stagingPath path = disk.stagingPath path := by
    rw [stagingPath_of_isAbsolute h, stagingPath_of_isAbsolute h]
    rfl
  have habsolute : Path.isAbsolute (disk.stagingPath path) = true := by
    rw [stagingPath_of_isAbsolute h]
    exact Path.isAbsolute_join_of_isAbsolute h _
  rw [Disk.stage, Disk.stage, hpath, find_startingAt habsolute]
  cases disk.find (disk.stagingPath path) with
  | error refusal => rfl
  | ok destination => cases destination <;> rfl

theorem anchored_stage (content : ByteArray) :
    Anchored (FileSystem.stage (m := DiskM) path content) := by
  intro disk start
  have hmoved := stage_startingAt h content disk start
  cases hstage : disk.stage path content with
  | error refusal =>
    rw [hstage] at hmoved
    rw [DiskM.stage_error hmoved, DiskM.stage_error hstage]
  | ok staged =>
    rw [hstage] at hmoved
    rw [DiskM.stage_ok hmoved, DiskM.stage_ok hstage]

/-- A new file in an absolute directory has an absolute path. -/
theorem isAbsolute_of_stage {content : ByteArray} {staged : String}
    (hstaged : (FileSystem.stage (m := DiskM) path content disk).1 = .ok staged) :
    Path.isAbsolute staged = true := by
  cases hstage : disk.stage path content with
  | error refusal =>
    rw [DiskM.stage_error hstage] at hstaged
    cases hstaged
  | ok result =>
    rw [DiskM.stage_ok hstage] at hstaged
    rw [← Except.ok.inj hstaged]
    obtain ⟨destination, -, hresult⟩ := bind_eq_ok hstage
    cases destination with
    | entry place entry => cases hresult
    | free place =>
      rw [← congrArg Prod.fst (Except.ok.inj hresult), stagingPath_of_isAbsolute h]
      exact Path.isAbsolute_join_of_isAbsolute h _

end Absolute

end Disk

open Disk

/-! ### Directories -/

theorem anchored_makeOutermost : ∀ {outer : List String} (inside : List String),
    (∀ path ∈ outer, Path.isAbsolute path = true) →
      Anchored (makeOutermost (m := DiskM) inside outer)
  | [], inside, _ => .pure _
  | path :: outer, inside, h => by
    have hpath : Path.isAbsolute path = true := h path List.mem_cons_self
    rw [makeOutermost]
    split_ifs
    · exact .pure _
    · refine (anchored_makeDirectory hpath).bind fun made => ?_
      split
      · exact .pure _
      · exact anchored_makeOutermost _ fun above habove => h above (List.mem_cons_of_mem _ habove)
      · refine (anchored_isDirectory hpath).bind fun isDirectory => ?_
        split_ifs <;> exact .pure _

theorem anchored_makeEach : ∀ {paths : List String},
    (∀ path ∈ paths, Path.isAbsolute path = true) → Anchored (makeEach (m := DiskM) paths)
  | [], _ => .pure _
  | path :: paths, h => by
    have hpath : Path.isAbsolute path = true := h path List.mem_cons_self
    have hpaths := anchored_makeEach fun other hother => h other (List.mem_cons_of_mem _ hother)
    rw [makeEach]
    refine (anchored_makeDirectory hpath).bind fun made => ?_
    split
    · exact hpaths
    · refine (anchored_isDirectory hpath).bind fun isDirectory => ?_
      split_ifs
      · exact hpaths
      · exact .pure _

/-- The directories that are left to be made are among those above the path. -/
theorem mem_of_makeOutermost {disk : Disk} {outer inside : List String}
    (h : (makeOutermost (m := DiskM) [] outer disk).1 = .ok inside) :
    ∀ path ∈ inside, path ∈ outer := by
  rcases makeOutermost_spec disk outer [] with ⟨refusal, hrefused⟩ |
    ⟨visited, rest, final, hsplit, hmade, -⟩
  · rw [hrefused] at h
    cases h
  · rw [hmade, List.append_nil] at h
    rw [← Except.ok.inj h, hsplit]
    exact fun path hpath => List.mem_append_left rest (List.mem_reverse.mp hpath)

theorem anchored_makeDirectories {path : String} (h : Path.isAbsolute path = true) :
    Anchored (makeDirectories (m := DiskM) path) := by
  have habove : ∀ above ∈ Path.ancestors path, Path.isAbsolute above = true :=
    fun _ => Path.isAbsolute_of_mem_ancestors h
  refine (anchored_makeOutermost [] habove).bind_of fun disk => ?_
  cases hmade : (makeOutermost (m := DiskM) [] (Path.ancestors path) disk).1 with
  | error refusal => exact .pure _
  | ok inside =>
    exact anchored_makeEach fun inner hinner => habove inner (mem_of_makeOutermost hmade inner hinner)

/-! ### Files of pages -/

theorem anchored_discard {staged : String} (h : Path.isAbsolute staged = true) :
    Anchored (discard (m := DiskM) staged) :=
  (anchored_remove h).bind fun _ => .pure ()

theorem anchored_restore {path : String} (h : Path.isAbsolute path = true)
    (previous : Option ByteArray) : Anchored (restore (m := DiskM) path previous) := by
  cases previous with
  | none => exact (anchored_remove h).bind fun _ => .pure ()
  | some content => exact (anchored_write h content).bind fun _ => .pure ()

theorem anchored_readExisting {path : String} (h : Path.isAbsolute path = true) :
    Anchored (readExisting (m := DiskM) path) := by
  refine (anchored_read h).bind fun content => ?_
  split <;> exact .pure _

theorem anchored_placeBoth {stagedHolder stagedView : String} {places : Artifacts}
    (hstagedHolder : Path.isAbsolute stagedHolder = true)
    (hstagedView : Path.isAbsolute stagedView = true)
    (hholder : Path.isAbsolute places.stateHolder = true)
    (hview : Path.isAbsolute places.view = true) :
    Anchored (placeBoth (m := DiskM) stagedHolder stagedView places) := by
  have hdiscardHolder := anchored_discard hstagedHolder
  have hdiscardView := anchored_discard hstagedView
  refine (anchored_readExisting hholder).bind fun previous => ?_
  cases previous with
  | error refusal => exact hdiscardView.bind fun _ => hdiscardHolder.bind fun _ => .pure _
  | ok previous =>
    refine (anchored_rename hstagedHolder hholder).bind fun moved => ?_
    cases moved with
    | error refusal => exact hdiscardHolder.bind fun _ => hdiscardView.bind fun _ => .pure _
    | ok moved =>
      refine (anchored_rename hstagedView hview).bind fun moved => ?_
      cases moved with
      | error refusal =>
        exact (anchored_restore hholder previous).bind fun _ => hdiscardView.bind fun _ => .pure _
      | ok moved => exact .pure _

section Output

variable {output : String} (h : Path.isAbsolute output = true)

include h

theorem anchored_writeSources (sources : PageSources) :
    Anchored (writeSources (m := DiskM) sources output) := by
  refine (anchored_stage h _).bind_of fun disk => ?_
  cases hholder : (FileSystem.stage (m := DiskM) output
    sources.stateHolder.content.toUTF8 disk).1 with
  | error refusal => exact .pure _
  | ok stagedHolder =>
    have hstagedHolder := isAbsolute_of_stage h hholder
    refine (anchored_stage h _).bind_of fun disk => ?_
    cases hview : (FileSystem.stage (m := DiskM) output sources.view.content.toUTF8 disk).1 with
    | error refusal => exact (anchored_discard hstagedHolder).bind fun _ => .pure _
    | ok stagedView =>
      have hplaced : Anchored (placeBoth (m := DiskM) stagedHolder stagedView
          ⟨Path.join output sources.stateHolder.name, Path.join output sources.view.name⟩) :=
        anchored_placeBoth hstagedHolder (isAbsolute_of_stage h hview)
          (Path.isAbsolute_join_of_isAbsolute h _) (Path.isAbsolute_join_of_isAbsolute h _)
      refine hplaced.bind fun placed => ?_
      cases placed <;> exact .pure _

theorem anchored_writeInto (sources : PageSources) :
    Anchored (writeInto (m := DiskM) output sources) := by
  refine (anchored_makeDirectories h).bind fun made => ?_
  cases made with
  | error refusal => exact .pure _
  | ok made => exact anchored_writeSources h sources

variable (registry : Registry) (settings : Settings) (dryRun : Bool)

theorem anchored_generate (page : Page) :
    Anchored (generate (m := DiskM) page output registry settings) := by
  rw [generate]
  cases page.render registry settings with
  | error failure => exact .pure _
  | ok sources => exact (anchored_writeInto h sources).map _

theorem anchored_generateOne (page : Page) :
    Anchored (generateOne (m := DiskM) output registry settings dryRun page) := by
  cases dryRun with
  | true => exact .pure _
  | false => exact (anchored_generate h registry settings page).map _

theorem anchored_generateUnclaimed : ∀ (pages : List Page) (claimed : List String),
    Anchored (generateUnclaimed (m := DiskM) output registry settings dryRun claimed pages)
  | [], _ => .pure _
  | page :: pages, claimed => by
    have hlater := anchored_generateUnclaimed pages (Kotlin.stateHolderType page.name :: claimed)
    rw [generateUnclaimed]
    dsimp only
    split_ifs
    · exact (Anchored.pure _).bind fun _ => hlater.map _
    · exact (anchored_generateOne h registry settings dryRun page).bind fun _ => hlater.map _

theorem anchored_generateBatch (pages : List Page) :
    Anchored (generateBatch (m := DiskM) pages output registry settings dryRun) :=
  anchored_generateUnclaimed h registry settings dryRun pages []

theorem anchored_emit (pages : List Page) :
    Anchored (emit (m := DiskM) pages output registry settings dryRun) := by
  have hbatch := anchored_generateBatch h registry settings dryRun pages
  rw [emit]
  split_ifs
  · exact hbatch.map _
  · refine (anchored_makeDirectories h).bind fun made => ?_
    cases made with
    | error refusal => exact .pure _
    | ok made => exact hbatch.map _

end Output

/-! ### Pages and tables -/

theorem anchored_loadPage {path : String} (h : Path.isAbsolute path = true) :
    Anchored (loadPage (m := DiskM) path) := by
  refine (anchored_read h).bind fun content => ?_
  cases content <;> exact .pure _

theorem anchored_loadDocument (reader : Json.Reader α) {path : String}
    (h : Path.isAbsolute path = true) : Anchored (loadDocument (m := DiskM) reader path) := by
  refine (anchored_read h).bind fun content => ?_
  split <;> exact .pure _

theorem anchored_loadRegistry {path : String} (h : Path.isAbsolute path = true) :
    Anchored (loadRegistry (m := DiskM) path) := by
  refine (anchored_loadDocument Registry.reader h).bind fun document => ?_
  split <;> exact .pure _

theorem anchored_activeRegistry {path? : Option String}
    (h : ∀ path, path? = some path → Path.isAbsolute path = true) :
    Anchored (activeRegistry (m := DiskM) path?) := by
  cases path? with
  | none => exact .pure _
  | some path => exact (anchored_loadRegistry (h path rfl)).map _

theorem anchored_firstMissing : ∀ {paths : List String},
    (∀ path ∈ paths, Path.isAbsolute path = true) → Anchored (firstMissing (m := DiskM) paths)
  | [], _ => .pure _
  | path :: paths, h => by
    rw [firstMissing]
    refine (anchored_pathExists (h path List.mem_cons_self)).bind fun found => ?_
    split_ifs
    · exact anchored_firstMissing fun other hother => h other (List.mem_cons_of_mem _ hother)
    · exact .pure _

theorem anchored_keepPageFiles : ∀ {paths : List String},
    (∀ path ∈ paths, Path.isAbsolute path = true) → Anchored (keepPageFiles (m := DiskM) paths)
  | [], _ => .pure _
  | path :: paths, h => by
    have hpaths := anchored_keepPageFiles fun other hother => h other (List.mem_cons_of_mem _ hother)
    rw [keepPageFiles]
    exact (anchored_isFile (h path List.mem_cons_self)).bind fun isFile => hpaths.map _

theorem anchored_pageFiles {source : String} (h : Path.isAbsolute source = true) :
    Anchored (pageFiles (m := DiskM) source) := by
  rw [pageFiles]
  refine (anchored_isDirectory h).bind fun isDirectory => ?_
  split_ifs
  · refine (anchored_list h).bind fun names => ?_
    cases names with
    | error refusal => exact .pure _
    | ok names =>
      refine (anchored_keepPageFiles fun path hpath => ?_).map _
      obtain ⟨name, -, rfl⟩ := List.mem_map.mp hpath
      exact Path.isAbsolute_join_of_isAbsolute h name
  · exact .pure _

theorem anchored_loadPages : ∀ {files : List String},
    (∀ file ∈ files, Path.isAbsolute file = true) → Anchored (loadPages (m := DiskM) files)
  | [], _ => .pure _
  | file :: files, h => by
    have hfiles := anchored_loadPages fun other hother => h other (List.mem_cons_of_mem _ hother)
    rw [loadPages]
    refine (anchored_loadPage (h file List.mem_cons_self)).bind fun page => ?_
    refine hfiles.bind fun rest => ?_
    cases page <;> exact .pure _

theorem anchored_extract : ∀ {sources : List String},
    (∀ source ∈ sources, Path.isAbsolute source = true) → Anchored (extract (m := DiskM) sources)
  | [], _ => .pure _
  | source :: sources, h => by
    have hsource : Path.isAbsolute source = true := h source List.mem_cons_self
    have hsources := anchored_extract fun other hother => h other (List.mem_cons_of_mem _ hother)
    rw [extract]
    refine (anchored_pageFiles hsource).bind_of fun disk => ?_
    rw [pageFiles_eq]
    cases hfiles : disk.pageFiles source with
    | error refusal => exact .pure _
    | ok files =>
      have habsolute : ∀ file ∈ files, Path.isAbsolute file = true := by
        intro file hfile
        rcases mem_pageFiles hfiles hfile with rfl | ⟨name, rfl⟩
        · exact hsource
        · exact Path.isAbsolute_join_of_isAbsolute hsource name
      refine (anchored_loadPages habsolute).bind fun first => ?_
      refine hsources.bind fun rest => ?_
      cases rest <;> exact .pure _

/-! ### Jobs -/

/-- A job of which all paths are absolute does the same from every working directory. -/
theorem anchored_runJob {job : Job} (dryRun : Bool)
    (hsources : ∀ source ∈ job.sources, Path.isAbsolute source = true)
    (houtput : Path.isAbsolute job.output = true) : Anchored (runJob (m := DiskM) job dryRun) := by
  rw [runJob]
  refine (anchored_extract hsources).bind fun extraction => ?_
  cases extraction with
  | error refusal => exact .pure _
  | ok extraction =>
    dsimp only
    split
    · exact .pure _
    · refine (anchored_emit houtput job.registry job.settings dryRun extraction.pages).bind
        fun reports => ?_
      cases reports <;> exact .pure _

end Pagewright
