/-
What is read of a disk before anything is written.

Loading changes nothing, so that what is loaded can be said of the disk alone:
`Disk.pageFiles` enumerates the page files of a source, `Disk.page` is what a
file holds.

* `extract_eq` — pages are loaded by enumerating the files of all sources and
  then reading each of them;
* `mem_pageFiles` — what is enumerated is a source itself or stands below it;
* `resolveJob_eq_ok_iff` — what a job is resolved from.
-/
import Pagewright.CommandLine.Run
import Pagewright.Proofs.Staging

namespace Pagewright

variable {α β : Type}

/-- A program that leaves every disk as it is. -/
def ReadOnly (program : DiskM α) : Prop :=
  ∀ disk, (program disk).2 = disk

namespace ReadOnly

theorem pure (value : α) : ReadOnly (Pure.pure value : DiskM α) :=
  fun _ => rfl

theorem bind {first : DiskM α} {second : α → DiskM β} (hfirst : ReadOnly first)
    (hsecond : ∀ value, ReadOnly (second value)) : ReadOnly (first >>= second) := by
  intro disk
  rw [DiskM.bind_apply, hfirst disk]
  exact hsecond _ disk

theorem map {first : DiskM α} (f : α → β) (h : ReadOnly first) :
    ReadOnly (do return f (← first)) :=
  h.bind fun value => pure (f value)

end ReadOnly

theorem readOnly_ask (question : Disk → α) : ReadOnly (DiskM.ask question) :=
  fun _ => rfl

namespace Disk

variable {disk : Disk}

/-- What a path leads to, if to anything. -/
def kind? (disk : Disk) (path : String) : Option EntryKind :=
  (disk.findEntry path).toOption.map (·.2.kind)

/-- Whether a path leads to a page file. -/
def isPageFile (disk : Disk) (path : String) : Bool :=
  disk.kind? path == some .file && Path.extension? path == some "json"

/-- The page files of a source. -/
def pageFiles (disk : Disk) (source : String) : Except StorageError (List String) :=
  if disk.kind? source = some .directory then
    (disk.list source).map fun names =>
      ((names.map (Path.join source)).filter disk.isPageFile).mergeSort (· ≤ ·)
  else .ok [source]

/-- The page files of some sources. -/
def enumerate (disk : Disk) (sources : List String) : Except StorageError (List String) :=
  (sources.mapM disk.pageFiles).map List.flatten

/-- The page in a file. -/
def page (disk : Disk) (file : String) : Except Failure Page :=
  match disk.read file with
  | .error refusal => .error (.storage refusal)
  | .ok content => pageOfContent file content

/-- Why a file holds no page. -/
def failure? (disk : Disk) (file : String) : Option SourceFailure :=
  match disk.page file with
  | .error failure => some ⟨file, failure⟩
  | .ok _ => none

/-- The pages in some files, and the files that cannot be read. -/
def extraction (disk : Disk) (files : List String) : Extraction where
  pages := files.filterMap fun file => (disk.page file).toOption
  failures := files.filterMap disk.failure?

theorem extraction_cons (file : String) (files : List String) :
    disk.extraction (file :: files) = match disk.page file with
      | .ok page => ⟨page :: (disk.extraction files).pages, (disk.extraction files).failures⟩
      | .error failure =>
        ⟨(disk.extraction files).pages, ⟨file, failure⟩ :: (disk.extraction files).failures⟩ := by
  rw [extraction, List.filterMap_cons, List.filterMap_cons, failure?]
  cases disk.page file <;> rfl

theorem extraction_append (files others : List String) :
    disk.extraction (files ++ others)
      = ⟨(disk.extraction files).pages ++ (disk.extraction others).pages,
        (disk.extraction files).failures ++ (disk.extraction others).failures⟩ := by
  rw [extraction, List.filterMap_append, List.filterMap_append]
  rfl

/-- What is enumerated is a source itself or stands below it. -/
theorem mem_pageFiles {source file : String} {files : List String}
    (h : disk.pageFiles source = .ok files) (hfile : file ∈ files) :
    file = source ∨ ∃ name, file = Path.join source name := by
  rw [pageFiles] at h
  split_ifs at h
  · obtain ⟨names, -, rfl⟩ := map_eq_ok h
    rw [List.mem_mergeSort, List.mem_filter] at hfile
    obtain ⟨name, -, rfl⟩ := List.mem_map.mp hfile.1
    exact .inr ⟨name, rfl⟩
  · rw [← Except.ok.inj h] at hfile
    exact .inl (List.mem_singleton.mp hfile)

end Disk

theorem keepPageFiles_eq (disk : Disk) : ∀ paths : List String,
    keepPageFiles (m := DiskM) paths disk = (paths.filter disk.isPageFile, disk)
  | [] => rfl
  | path :: paths => by
    have hpaths := keepPageFiles_eq disk paths
    have hpath : FileSystem.isFile (m := DiskM) path disk
        = (disk.kind? path == some .file, disk) := rfl
    rw [keepPageFiles, DiskM.bind_apply, hpath, DiskM.bind_apply, hpaths, List.filter_cons]
    rfl

theorem pageFiles_eq (disk : Disk) (source : String) :
    pageFiles (m := DiskM) source disk = (disk.pageFiles source, disk) := by
  have hsource : FileSystem.isDirectory (m := DiskM) source disk
      = (disk.kind? source == some .directory, disk) := rfl
  rw [pageFiles, DiskM.bind_apply, hsource, Disk.pageFiles]
  by_cases hdirectory : disk.kind? source = some .directory
  · have hlist : FileSystem.list (m := DiskM) source disk = (disk.list source, disk) := rfl
    rw [if_pos (by simpa using hdirectory), if_pos hdirectory, DiskM.bind_apply, hlist]
    cases disk.list source with
    | error refusal => rfl
    | ok names =>
      dsimp only
      rw [DiskM.bind_apply, keepPageFiles_eq]
      rfl
  · rw [if_neg (by simpa using hdirectory), if_neg hdirectory]
    rfl

theorem loadPage_eq (disk : Disk) (file : String) :
    loadPage (m := DiskM) file disk = (disk.page file, disk) := by
  have hread : FileSystem.read (m := DiskM) file disk = (disk.read file, disk) := rfl
  rw [loadPage, DiskM.bind_apply, hread, Disk.page]
  cases disk.read file <;> rfl

theorem loadPages_eq (disk : Disk) : ∀ files : List String,
    loadPages (m := DiskM) files disk = (disk.extraction files, disk)
  | [] => rfl
  | file :: files => by
    have hfiles := loadPages_eq disk files
    rw [loadPages, DiskM.bind_apply, loadPage_eq, DiskM.bind_apply, hfiles,
      Disk.extraction_cons]
    cases disk.page file <;> rfl

/-- Pages are loaded by enumerating all files and reading each of them. -/
theorem extract_eq (disk : Disk) : ∀ sources : List String,
    extract (m := DiskM) sources disk = ((disk.enumerate sources).map disk.extraction, disk)
  | [] => rfl
  | source :: sources => by
    have hsources := extract_eq disk sources
    rw [extract, DiskM.bind_apply, pageFiles_eq, Disk.enumerate, List.mapM_cons]
    cases disk.pageFiles source with
    | error refusal => rfl
    | ok files =>
      dsimp only
      rw [DiskM.bind_apply, loadPages_eq, DiskM.bind_apply, hsources, Disk.enumerate]
      cases sources.mapM disk.pageFiles with
      | error refusal => rfl
      | ok others =>
        show (Except.ok _, disk) = (Except.ok _, disk)
        rw [List.flatten_cons, Disk.extraction_append]

/-! ### Documents -/

section Document

variable {reader : Json.Reader α} {path : String} {place : Place} {disk : Disk}

theorem loadDocument_of_file {content : ByteArray}
    (h : disk.findEntry path = .ok (place, .file content)) :
    loadDocument (m := DiskM) reader path disk = (.ok (valueOfContent reader content), disk) := by
  have hread : FileSystem.read (m := DiskM) path disk = (.ok content, disk) := by
    show (disk.read path, disk) = _
    rw [Disk.read, h]
    rfl
  rw [loadDocument, DiskM.bind_apply, hread]
  rfl

theorem loadDocument_of_directory (h : disk.findEntry path = .ok (place, .directory)) :
    loadDocument (m := DiskM) reader path disk
      = (.ok (.error (.unreadable .isDirectory)), disk) := by
  have hread : FileSystem.read (m := DiskM) path disk = (.error .isDirectory, disk) := by
    show (disk.read path, disk) = _
    rw [Disk.read, h]
    rfl
  rw [loadDocument, DiskM.bind_apply, hread]
  rfl

end Document

/-! ### Jobs -/

namespace CommandLine

theorem firstExisting_eq (disk : Disk) : ∀ paths : List String,
    firstExisting (m := DiskM) paths disk
      = (paths.find? fun path => (disk.kind? path).isSome, disk)
  | [] => rfl
  | path :: paths => by
    have hpath : FileSystem.pathExists (m := DiskM) path disk
        = ((disk.kind? path).isSome, disk) := rfl
    rw [firstExisting, DiskM.bind_apply, hpath, List.find?_cons]
    cases (disk.kind? path).isSome with
    | true => rfl
    | false => exact firstExisting_eq disk paths

theorem firstMissing_eq (disk : Disk) : ∀ paths : List String,
    firstMissing (m := DiskM) paths disk
      = (paths.find? fun path => (disk.kind? path).isNone, disk)
  | [] => rfl
  | path :: paths => by
    have hpath : FileSystem.pathExists (m := DiskM) path disk
        = ((disk.kind? path).isSome, disk) := rfl
    rw [firstMissing, DiskM.bind_apply, hpath, List.find?_cons]
    cases hkind : disk.kind? path with
    | none => rfl
    | some kind => exact firstMissing_eq disk paths

theorem readOnly_firstExisting (paths : List String) : ReadOnly (firstExisting paths) :=
  fun disk => by rw [firstExisting_eq]

theorem readOnly_searchManifest : ReadOnly searchManifest := by
  refine (readOnly_ask _).bind fun directory => ?_
  cases directory with
  | error refusal => exact .pure _
  | ok directory => exact (readOnly_firstExisting _).map _

theorem readOnly_findManifest (path : String) : ReadOnly (findManifest path) := by
  rw [findManifest]
  refine (readOnly_ask _).bind fun found => ?_
  split_ifs
  · exact .pure _
  · exact readOnly_searchManifest
  · exact .pure _

theorem readOnly_loadDocument {α : Type} (reader : Json.Reader α) (path : String) :
    ReadOnly (loadDocument reader path) := by
  refine (readOnly_ask _).bind fun content => ?_
  split <;> exact .pure _

theorem readOnly_loadManifest (path : String) : ReadOnly (loadManifest path) := by
  refine (readOnly_loadDocument Manifest.reader path).bind fun document => ?_
  split
  · exact .pure _
  · exact .pure _
  · refine (readOnly_ask _).bind fun canonical => ?_
    split
    · exact .pure _
    · split <;> exact .pure _

theorem readOnly_projectManifest (path : String) : ReadOnly (projectManifest path) := by
  refine (readOnly_findManifest path).bind fun found => ?_
  split
  · exact .pure _
  · exact .pure _
  · exact (readOnly_loadManifest _).map _

theorem readOnly_activeRegistry (path? : Option String) : ReadOnly (activeRegistry path?) := by
  cases path? with
  | none => exact .pure _
  | some path =>
    have hload : ReadOnly (loadRegistry path) := by
      refine (readOnly_loadDocument Registry.reader path).bind fun document => ?_
      split <;> exact .pure _
    exact hload.map _

/-- The job of a run whose manifest has been loaded. -/
def jobWith (options : GenerateOptions) (manifest? : Option Manifest) :
    DiskM (Except Abort Job) := do
  match ← firstMissing (jobSources options manifest?) with
  | some source => return .error ⟨"page source not found: " ++ source, []⟩
  | none =>
    match ← activeRegistry (options.table? <|> manifest?.bind (·.table?)) with
    | .error abort => return .error abort
    | .ok registry =>
      return .ok ⟨jobSources options manifest?, jobOutput options manifest?, registry,
        jobSettings options manifest?⟩

theorem resolveJob_of_manifest {options : GenerateOptions} {manifest? : Option Manifest}
    {disk : Disk} (h : (projectManifest (m := DiskM) options.manifest disk).1 = .ok manifest?) :
    resolveJob (m := DiskM) options disk = jobWith options manifest? disk := by
  rw [resolveJob, DiskM.bind_apply, h, readOnly_projectManifest]
  rfl

theorem resolveJob_of_abort {options : GenerateOptions} {abort : Abort} {disk : Disk}
    (h : (projectManifest (m := DiskM) options.manifest disk).1 = .error abort) :
    resolveJob (m := DiskM) options disk = (.error abort, disk) := by
  rw [resolveJob, DiskM.bind_apply, h, readOnly_projectManifest]
  rfl

theorem readOnly_firstMissing (paths : List String) : ReadOnly (firstMissing paths) :=
  fun disk => by rw [firstMissing_eq]

theorem readOnly_jobWith (options : GenerateOptions) (manifest? : Option Manifest) :
    ReadOnly (jobWith options manifest?) := by
  refine (readOnly_firstMissing _).bind fun missing => ?_
  cases missing with
  | some source => exact .pure _
  | none =>
    refine (readOnly_activeRegistry _).bind fun registry => ?_
    cases registry <;> exact .pure _

theorem readOnly_resolveJob (options : GenerateOptions) : ReadOnly (resolveJob options) := by
  refine (readOnly_projectManifest _).bind fun manifest? => ?_
  cases manifest? with
  | error abort => exact .pure _
  | ok manifest? => exact readOnly_jobWith options manifest?

/-- A job can be resolved: the manifest is loaded, every source leads to
something, and the table is loaded. -/
def Resolves (disk : Disk) (options : GenerateOptions) (job : Job) : Prop :=
  ∃ manifest? registry,
    (projectManifest (m := DiskM) options.manifest disk).1 = .ok manifest? ∧
    (∀ source ∈ jobSources options manifest?, disk.kind? source ≠ none) ∧
    (activeRegistry (m := DiskM) (options.table? <|> manifest?.bind (·.table?)) disk).1
      = .ok registry ∧
    job = ⟨jobSources options manifest?, jobOutput options manifest?, registry,
      jobSettings options manifest?⟩

theorem resolveJob_eq_ok_iff (options : GenerateOptions) (disk : Disk) (job : Job) :
    (resolveJob (m := DiskM) options disk).1 = .ok job ↔ Resolves disk options job := by
  rw [Resolves]
  cases hmanifest : (projectManifest (m := DiskM) options.manifest disk).1 with
  | error abort =>
    rw [resolveJob_of_abort hmanifest]
    constructor
    · exact fun h => by cases h
    · rintro ⟨manifest?, registry, h, -⟩
      cases h
  | ok manifest? =>
    rw [resolveJob_of_manifest hmanifest, jobWith, DiskM.bind_apply, firstMissing_eq]
    cases hmissing : (jobSources options manifest?).find? fun path => (disk.kind? path).isNone with
    | some source =>
      constructor
      · exact fun h => by cases h
      · rintro ⟨_, registry, ⟨⟩, hsources, -⟩
        have hkind := hsources source (List.mem_of_find?_eq_some hmissing)
        exact absurd (by simpa using List.find?_some hmissing) hkind
    | none =>
      have hsources : ∀ source ∈ jobSources options manifest?, disk.kind? source ≠ none :=
        fun source hsource => by simpa using List.find?_eq_none.mp hmissing source hsource
      dsimp only
      rw [DiskM.bind_apply]
      cases hregistry : (activeRegistry (m := DiskM)
        (options.table? <|> manifest?.bind (·.table?)) disk).1 with
      | error abort =>
        constructor
        · exact fun h => by cases h
        · rintro ⟨_, registry, ⟨⟩, -, h, -⟩
          rw [hregistry] at h
          cases h
      | ok registry =>
        constructor
        · exact fun h => ⟨manifest?, registry, rfl, hsources, hregistry, (Except.ok.inj h).symm⟩
        · rintro ⟨_, registry', ⟨⟩, -, h, rfl⟩
          rw [hregistry] at h
          rw [Except.ok.inj h]
          rfl

section Run

variable {options : GenerateOptions} {disk : Disk} (dryRun : Bool)

theorem runGenerate_of_abort {abort : Abort}
    (h : (resolveJob (m := DiskM) options disk).1 = .error abort) :
    runGenerate (m := DiskM) options dryRun disk = (.aborted abort "" "", disk) := by
  rw [runGenerate, DiskM.bind_apply, h, readOnly_resolveJob]
  rfl

theorem runGenerate_of_job {job : Job} (h : (resolveJob (m := DiskM) options disk).1 = .ok job) :
    runGenerate (m := DiskM) options dryRun disk = runJob (m := DiskM) job dryRun disk := by
  rw [runGenerate, DiskM.bind_apply, h, readOnly_resolveJob]

theorem run_of_parse {arguments : List String}
    (h : Invocation.parse arguments = .run (.generate options dryRun)) :
    run (m := DiskM) arguments = runGenerate options dryRun := by
  unfold run
  rw [h]
  rfl

end Run

end CommandLine

end Pagewright
