/-
What a run makes known about the files that it reads.

Every page file meets a fate:  it cannot be read, or there is a report on its
page, be it that the page was generated or why it was not.  Files and reports
are counted apart from each other; the fates bring them together again, in the
order of the files.

* `exists_fates` — there is one fate for every file, and the reports are
  among them in the order of the pages;
* `reportOutcome_accounts` — what is printed is a line for every fate, and the
  counts are those of the fates;
* `run_verdict` — a run succeeds exactly if everything could be loaded and no
  file has failed.
-/
import Mathlib.Data.List.Count
import Pagewright.Proofs.DryRun
import Pagewright.Proofs.Loading

namespace Pagewright

open CommandLine

/-! ### Fates -/

/-- What becomes of a page file. -/
inductive Fate
  | unreadable (failure : SourceFailure)
  | reported (report : PageReport)

namespace Fate

/-- Why a file could not be read. -/
def failure? : Fate → Option SourceFailure
  | .unreadable failure => some failure
  | .reported _ => none

/-- The report on the page of a file. -/
def report? : Fate → Option PageReport
  | .unreadable _ => none
  | .reported report => some report

/-- Whether a file counts as failed. -/
def failed : Fate → Bool
  | .unreadable _ => true
  | .reported report => !report.isOk

/-- The line on the output for a file whose page is good. -/
def successLine? : Fate → Option String
  | .unreadable _ => none
  | .reported report =>
    match report.outcome with
    | .ok (some artifacts) =>
      some ("Generated " ++ report.page ++ ": " ++ artifacts.stateHolder ++ ", "
        ++ artifacts.view ++ "\n")
    | .ok none => some ("Checked " ++ report.page ++ "\n")
    | .error _ => none

/-- The line among the errors for a file that could not be read. -/
def unreadableLine? : Fate → Option String
  | .unreadable failure => some ("error: " ++ failure.failure.message ++ "\n")
  | .reported _ => none

/-- The line among the errors for a file whose page failed. -/
def failureLine? : Fate → Option String
  | .unreadable _ => none
  | .reported report =>
    match report.outcome with
    | .ok _ => none
    | .error failure => some ("error: page " ++ report.page ++ ": " ++ failure.message ++ "\n")

/-- Whether a file can meet a fate. -/
inductive Of (disk : Disk) : String → Fate → Prop
  | unreadable {file : String} {failure : Failure} (h : disk.page file = .error failure) :
    Of disk file (.unreadable ⟨file, failure⟩)
  | reported {file : String} {page : Page} {report : PageReport} (h : disk.page file = .ok page)
    (hname : report.page = page.name) : Of disk file (.reported report)

theorem length_filterMap : ∀ fates : List Fate,
    (fates.filterMap report?).length + (fates.filterMap failure?).length = fates.length
  | [] => rfl
  | .unreadable failure :: fates => by
    have hfates := length_filterMap fates
    simp only [List.filterMap_cons, report?, failure?, List.length_cons]
    omega
  | .reported report :: fates => by
    have hfates := length_filterMap fates
    simp only [List.filterMap_cons, report?, failure?, List.length_cons]
    omega

/-- The files that have failed are the unreadable ones and those whose report
is an error. -/
theorem countP_failed : ∀ fates : List Fate,
    fates.countP failed = (fates.filterMap failure?).length
      + ((fates.filterMap report?).filter (!·.isOk)).length
  | [] => rfl
  | .unreadable failure :: fates => by
    rw [List.countP_cons_of_pos rfl, countP_failed fates]
    simp only [List.filterMap_cons, report?, failure?, List.length_cons]
    omega
  | .reported report :: fates => by
    have hfates := countP_failed fates
    cases hok : report.isOk with
    | true =>
      rw [List.countP_cons_of_neg (by simp [failed, hok]), hfates]
      simp [List.filterMap_cons, report?, failure?, hok]
    | false =>
      rw [List.countP_cons_of_pos (by simp [failed, hok]), hfates]
      simp [List.filterMap_cons, report?, failure?, hok]
      omega

end Fate

/-- There is a fate for every file, so that reports and unreadable files come
in the order of the files. -/
theorem exists_fates (disk : Disk) : ∀ (files : List String) (reports : List PageReport),
    reports.map PageReport.page = (disk.extraction files).pages.map Page.name →
      ∃ fates, List.Forall₂ (Fate.Of disk) files fates ∧
        fates.filterMap Fate.report? = reports ∧
        fates.filterMap Fate.failure? = (disk.extraction files).failures
  | [], reports, h => by
    obtain rfl : reports = [] := List.map_eq_nil_iff.mp h
    exact ⟨[], .nil, rfl, rfl⟩
  | file :: files, reports, h => by
    rw [Disk.extraction_cons] at h ⊢
    cases hpage : disk.page file with
    | error failure =>
      rw [hpage] at h
      obtain ⟨fates, hfates, hreports, hfailures⟩ := exists_fates disk files reports h
      refine ⟨.unreadable ⟨file, failure⟩ :: fates, .cons (.unreadable hpage) hfates, hreports, ?_⟩
      rw [List.filterMap_cons, hfailures]
      rfl
    | ok page =>
      rw [hpage, List.map_cons] at h
      obtain ⟨report, others, rfl, hname, hothers⟩ := List.map_eq_cons_iff.mp h
      obtain ⟨fates, hfates, hreports, hfailures⟩ := exists_fates disk files others hothers
      refine ⟨.reported report :: fates, .cons (.reported hpage hname) hfates, ?_, hfailures⟩
      rw [List.filterMap_cons, hreports]
      rfl

/-! ### Reports -/

section Reports

variable {output : String} {registry : Registry} {settings : Settings} {dryRun : Bool}

/-- Only a dry run reports success without files. -/
theorem generateOne_ok {page : Page} {disk : Disk} {artifacts? : Option Artifacts}
    (h : (generateOne (m := DiskM) output registry settings dryRun page disk).1 = .ok artifacts?) :
    artifacts? = none ↔ dryRun = true := by
  cases dryRun with
  | true =>
    obtain ⟨sources, -, rfl⟩ := map_eq_ok h
    exact iff_of_true rfl rfl
  | false =>
    obtain ⟨artifacts, -, rfl⟩ := map_eq_ok h
    simp

theorem generateUnclaimed_ok : ∀ {pages : List Page} {claimed : List String} {disk : Disk},
    ∀ report ∈ (generateUnclaimed (m := DiskM) output registry settings dryRun claimed pages disk).1,
      ∀ artifacts?, report.outcome = .ok artifacts? → (artifacts? = none ↔ dryRun = true)
  | [], _, _, _, h, _, _ => absurd h List.not_mem_nil
  | page :: pages, claimed, disk, report, h, artifacts?, hok => by
    by_cases hclaimed : Kotlin.stateHolderType page.name ∈ claimed
    · rw [generateUnclaimed_of_claimed hclaimed] at h
      rcases List.mem_cons.mp h with rfl | h
      · cases hok
      · exact generateUnclaimed_ok report h artifacts? hok
    · rw [generateUnclaimed_next hclaimed] at h
      rcases List.mem_cons.mp h with rfl | h
      · exact generateOne_ok hok
      · exact generateUnclaimed_ok report h artifacts? hok

/-- What is emitted is the reports of a batch, on whatever disk the output
directory leaves. -/
theorem exists_batch_of_emit {pages : List Page} {disk : Disk} {reports : List PageReport}
    (h : (emit (m := DiskM) pages output registry settings dryRun disk).1 = .ok reports) :
    ∃ next, reports
      = (generateBatch (m := DiskM) pages output registry settings dryRun next).1 := by
  cases dryRun with
  | true => exact ⟨disk, (Except.ok.inj h).symm⟩
  | false =>
    cases hmake : makeDirectories (m := DiskM) output disk with
    | mk result next =>
      cases result with
      | error refusal =>
        rw [emit_of_refused hmake] at h
        cases h
      | ok made =>
        rw [emit_of_made hmake] at h
        exact ⟨next, (Except.ok.inj h).symm⟩

end Reports

/-! ### What is printed -/

/-- The exit code and the output of a run are those that the fates of the files
make up:  a line for every success in order, and `emitted` if there is nothing
else; an error for every file that could not be read, then for every page that
failed, and then the counts. -/
structure Accounts (outcome : Outcome) (files : List String) (fates : List Fate)
    (emitted : String) : Prop where
  code : outcome.code = if fates.countP Fate.failed = 0 then 0 else 1
  output : outcome.output = String.join (fates.filterMap Fate.successLine?)
    ++ (if fates.countP Fate.failed = 0 then emitted else "")
  errors : outcome.errors = String.join (fates.filterMap Fate.unreadableLine?)
    ++ String.join (fates.filterMap Fate.failureLine?)
    ++ (if fates.countP Fate.failed = 0 then ""
      else "Error: " ++ toString (fates.countP Fate.failed) ++ " of " ++ toString files.length
        ++ " pages failed\n")

/-- Values without a line add nothing to a printed text. -/
theorem join_filterMap {α : Type} (line? : α → Option String) : ∀ values : List α,
    String.join (values.filterMap line?)
      = String.join (values.map fun value => (line? value).getD "")
  | [] => rfl
  | value :: values => by
    rw [List.filterMap_cons, List.map_cons, String.join_cons, ← join_filterMap line? values]
    cases line? value with
    | none => rw [Option.getD_none, String.empty_append]
    | some line => rw [String.join_cons, Option.getD_some]

namespace Fate

/-- What is printed about the reports is the lines that the fates have. -/
theorem join_map_report? {print : PageReport → String} {line? : Fate → Option String}
    (hunreadable : ∀ failure, line? (.unreadable failure) = none)
    (hreported : ∀ report, (line? (.reported report)).getD "" = print report)
    (fates : List Fate) :
    String.join ((fates.filterMap report?).map print) = String.join (fates.filterMap line?) := by
  rw [List.map_filterMap, join_filterMap, join_filterMap]
  refine congrArg String.join (List.map_congr_left fun fate _ => ?_)
  cases fate with
  | unreadable failure =>
    rw [hunreadable]
    rfl
  | reported report => exact (hreported report).symm

theorem join_map_reportOutput (fates : List Fate) :
    String.join ((fates.filterMap report?).map reportOutput)
      = String.join (fates.filterMap successLine?) := by
  refine join_map_report? (fun _ => rfl) (fun report => ?_) fates
  rw [reportOutput, successLine?]
  rcases report.outcome with failure | _ | artifacts <;> rfl

theorem join_map_reportErrors (fates : List Fate) :
    String.join ((fates.filterMap report?).map reportErrors)
      = String.join (fates.filterMap failureLine?) := by
  refine join_map_report? (fun _ => rfl) (fun report => ?_) fates
  rw [reportErrors, failureLine?]
  cases report.outcome <;> rfl

theorem sourceErrors_failure? (fates : List Fate) :
    sourceErrors (fates.filterMap failure?)
      = String.join (fates.filterMap unreadableLine?) := by
  rw [sourceErrors, List.map_filterMap]
  refine congrArg String.join (List.filterMap_congr fun fate _ => ?_)
  cases fate <;> rfl

end Fate

theorem reportOutcome_accounts {files : List String} {fates : List Fate} {disk : Disk}
    (h : List.Forall₂ (Fate.Of disk) files fates) (emitted : String) :
    Accounts (reportOutcome (fates.filterMap Fate.report?) (fates.filterMap Fate.failure?) emitted)
      files fates emitted := by
  have hfailed := Fate.countP_failed fates
  have htotal : (fates.filterMap Fate.report?).length + (fates.filterMap Fate.failure?).length
      = files.length := (Fate.length_filterMap fates).trans h.length_eq.symm
  rw [reportOutcome, ← hfailed, htotal, Fate.join_map_reportOutput, Fate.join_map_reportErrors,
    Fate.sourceErrors_failure?]
  by_cases hnone : fates.countP Fate.failed = 0
  · rw [if_pos hnone]
    constructor
    case code => rw [if_pos hnone]
    case output => rw [if_pos hnone]
    case errors => rw [if_pos hnone, String.append_empty]
  · rw [if_neg hnone]
    constructor
    case code => rw [if_neg hnone]; rfl
    case output => rw [if_neg hnone, String.append_empty]; rfl
    case errors =>
      rw [if_neg hnone, Outcome.aborted, Abort.text]
      simp only [String.append_assoc, String.append_empty]
      rfl

/-! ### Runs -/

section Run

variable {job : Job} {files : List String} {reports : List PageReport} {disk : Disk}
  (dryRun : Bool)

theorem extraction_isEmpty (files : List String) :
    ((disk.extraction files).pages.isEmpty && (disk.extraction files).failures.isEmpty)
      = files.isEmpty := by
  cases files with
  | nil => rfl
  | cons file files =>
    rw [Disk.extraction_cons]
    cases disk.page file with
    | error failure => rw [List.isEmpty_cons, Bool.and_false, List.isEmpty_cons]
    | ok page => rw [List.isEmpty_cons, Bool.false_and, List.isEmpty_cons]

theorem code_runJob_of_refused {refusal : StorageError}
    (h : disk.enumerate job.sources = .error refusal) :
    (runJob (m := DiskM) job dryRun disk).1.code = 1 := by
  rw [runJob, DiskM.bind_apply, extract_eq, h]
  rfl

/-- A job for whose sources there are files ends with what is emitted of their pages. -/
theorem runJob_of_files (h : disk.enumerate job.sources = .ok files) (hfiles : files ≠ []) :
    (runJob (m := DiskM) job dryRun disk).1
      = match (emit (m := DiskM) (disk.extraction files).pages job.output job.registry
          job.settings dryRun disk).1 with
        | .error failure =>
          .aborted ⟨failure.message, []⟩ "" (sourceErrors (disk.extraction files).failures)
        | .ok reports => reportOutcome reports (disk.extraction files).failures
          (if dryRun then "" else "Emitted compose output to " ++ job.output ++ "\n") := by
  have hempty : ¬files.isEmpty = true := by simpa using hfiles
  rw [runJob, DiskM.bind_apply, extract_eq, h]
  dsimp only [Except.map]
  rw [extraction_isEmpty, if_neg hempty, DiskM.bind_apply]
  cases (emit (m := DiskM) (disk.extraction files).pages job.output job.registry
    job.settings dryRun disk).1 <;> rfl

theorem code_runJob_of_no_files (h : disk.enumerate job.sources = .ok []) :
    (runJob (m := DiskM) job dryRun disk).1.code = 1 := by
  rw [runJob, DiskM.bind_apply, extract_eq, h]
  rfl

/-- A run that emits has a fate for every file, and its outcome accounts for them. -/
theorem exists_accounts (h : disk.enumerate job.sources = .ok files) (hfiles : files ≠ [])
    (hemit : (emit (m := DiskM) (disk.extraction files).pages job.output job.registry job.settings
      dryRun disk).1 = .ok reports) :
    ∃ fates, List.Forall₂ (Fate.Of disk) files fates ∧ fates.filterMap Fate.report? = reports ∧
      Accounts (runJob (m := DiskM) job dryRun disk).1 files fates
        (if dryRun then "" else "Emitted compose output to " ++ job.output ++ "\n") := by
  obtain ⟨next, hbatch⟩ := exists_batch_of_emit hemit
  have hnames : reports.map PageReport.page = (disk.extraction files).pages.map Page.name := by
    rw [hbatch]
    exact names_generateUnclaimed _ [] next
  obtain ⟨fates, hfates, hreports, hfailures⟩ := exists_fates disk files reports hnames
  refine ⟨fates, hfates, hreports, ?_⟩
  rw [runJob_of_files dryRun h hfiles, hemit, ← hreports, ← hfailures]
  exact reportOutcome_accounts hfates _

/-- No file has failed if all of them are read and have a good report. -/
theorem countP_failed_eq_zero {fates : List Fate} (h : List.Forall₂ (Fate.Of disk) files fates) :
    fates.countP Fate.failed = 0 ↔
      (∀ file ∈ files, ∃ page, disk.page file = .ok page) ∧
        ∀ report ∈ fates.filterMap Fate.report?, report.isOk = true := by
  rw [List.countP_eq_zero]
  induction h with
  | nil => simp
  | @cons file fate files fates hfate _ ih =>
    rw [List.forall_mem_cons, List.forall_mem_cons, ih]
    cases hfate with
    | unreadable hpage =>
      simp [Fate.failed, hpage]
    | @reported page report hpage hname =>
      have hreports : (Fate.reported report :: fates).filterMap Fate.report?
          = report :: fates.filterMap Fate.report? := by
        rw [List.filterMap_cons]
        rfl
      rw [hreports, List.forall_mem_cons]
      simp [Fate.failed, hpage, and_left_comm]

/-- A job succeeds exactly if there are files, and none of them has failed. -/
theorem code_runJob_eq_zero_iff :
    (runJob (m := DiskM) job dryRun disk).1.code = 0 ↔
      ∃ files reports, disk.enumerate job.sources = .ok files ∧ files ≠ [] ∧
        (∀ file ∈ files, ∃ page, disk.page file = .ok page) ∧
        (emit (m := DiskM) (disk.extraction files).pages job.output job.registry job.settings
          dryRun disk).1 = .ok reports ∧
        ∀ report ∈ reports, report.isOk = true := by
  constructor
  · intro hcode
    -- Whatever is missing ends the run with an error.
    cases hfiles : disk.enumerate job.sources with
    | error refusal =>
      rw [code_runJob_of_refused dryRun hfiles] at hcode
      cases hcode
    | ok files =>
      by_cases hne : files = []
      · rw [code_runJob_of_no_files dryRun (hne ▸ hfiles)] at hcode
        cases hcode
      · cases hemit : (emit (m := DiskM) (disk.extraction files).pages job.output job.registry
          job.settings dryRun disk).1 with
        | error failure =>
          rw [runJob_of_files dryRun hfiles hne, hemit] at hcode
          cases hcode
        | ok reports =>
          obtain ⟨fates, hfates, rfl, haccounts⟩ := exists_accounts dryRun hfiles hne hemit
          have hnone : fates.countP Fate.failed = 0 := by
            by_contra hfailed
            rw [haccounts.code, if_neg hfailed] at hcode
            cases hcode
          obtain ⟨hread, hgood⟩ := (countP_failed_eq_zero hfates).mp hnone
          exact ⟨files, _, rfl, hne, hread, hemit, hgood⟩
  · rintro ⟨files, reports, hfiles, hne, hread, hemit, hgood⟩
    obtain ⟨fates, hfates, rfl, haccounts⟩ := exists_accounts dryRun hfiles hne hemit
    rw [haccounts.code, if_pos ((countP_failed_eq_zero hfates).mpr ⟨hread, hgood⟩)]

end Run

/-- **The verdict of a run and its counts are exact.**  A run succeeds exactly
if its job can be resolved, its sources enumerate page files, all of these are
read, and their pages are emitted with good reports only.  Whenever pages are
emitted there is a report for each, in order, that only in a dry run names no
files; and the outcome accounts for the fates of all files. -/
theorem run_verdict {arguments : List String} {options : GenerateOptions} {dryRun : Bool}
    (h : Invocation.parse arguments = .run (.generate options dryRun)) (disk : Disk) :
    ((run (m := DiskM) arguments disk).1.code = 0 ↔
      ∃ job files reports, Resolves disk options job ∧
        disk.enumerate job.sources = .ok files ∧ files ≠ [] ∧
        (∀ file ∈ files, ∃ page, disk.page file = .ok page) ∧
        (emit (m := DiskM) (disk.extraction files).pages job.output job.registry job.settings
          dryRun disk).1 = .ok reports ∧
        ∀ report ∈ reports, report.isOk = true) ∧
    ∀ job files reports, Resolves disk options job →
      disk.enumerate job.sources = .ok files → files ≠ [] →
      (emit (m := DiskM) (disk.extraction files).pages job.output job.registry job.settings
        dryRun disk).1 = .ok reports →
      reports.map PageReport.page = (disk.extraction files).pages.map Page.name ∧
      (∀ report ∈ reports, ∀ artifacts?, report.outcome = .ok artifacts? →
        (artifacts? = none ↔ dryRun = true)) ∧
      ∃ fates, List.Forall₂ (Fate.Of disk) files fates ∧ fates.filterMap Fate.report? = reports ∧
        Accounts (run (m := DiskM) arguments disk).1 files fates
          (if dryRun then "" else "Emitted compose output to " ++ job.output ++ "\n") := by
  rw [run_of_parse dryRun h]
  refine ⟨⟨fun hcode => ?_, ?_⟩, fun job files reports hjob hfiles hne hemit => ?_⟩
  · cases hresolved : (resolveJob (m := DiskM) options disk).1 with
    | error abort =>
      rw [runGenerate_of_abort dryRun hresolved] at hcode
      cases hcode
    | ok job =>
      rw [runGenerate_of_job dryRun hresolved] at hcode
      obtain ⟨files, reports, hsucceeds⟩ := (code_runJob_eq_zero_iff dryRun).mp hcode
      exact ⟨job, files, reports, (resolveJob_eq_ok_iff options disk job).mp hresolved, hsucceeds⟩
  · rintro ⟨job, files, reports, hjob, hsucceeds⟩
    rw [runGenerate_of_job dryRun ((resolveJob_eq_ok_iff options disk job).mpr hjob)]
    exact (code_runJob_eq_zero_iff dryRun).mpr ⟨files, reports, hsucceeds⟩
  · obtain ⟨next, hbatch⟩ := exists_batch_of_emit hemit
    refine ⟨?_, ?_, ?_⟩
    · rw [hbatch]
      exact names_generateUnclaimed _ [] next
    · rw [hbatch]
      exact generateUnclaimed_ok
    · rw [runGenerate_of_job dryRun ((resolveJob_eq_ok_iff options disk job).mpr hjob)]
      exact exists_accounts dryRun hfiles hne hemit

/-- A page that can be checked, one that cannot, and a file without a page. -/
def mixedDisk : Disk where
  entries := [
    (["a.json"], .file "\x7b\"componentTree\": \x7b\"componentName\": \"Text\"\x7d\x7d".toUTF8),
    (["b.json"], .file "\x7b\"componentTree\": \x7b\"componentName\": \"Image\"\x7d\x7d".toUTF8),
    (["c.json"], .file "c".toUTF8)]

/-- Checked together, the files make one line of output, and two lines of errors
before the counts; generated alone, the first page names its two files. -/
theorem mixedDisk_verdict :
    (∃ fates, List.Forall₂ (Fate.Of mixedDisk) ["a.json", "b.json", "c.json"] fates ∧
      fates.countP Fate.failed ≠ 0 ∧
      Accounts
        (run (m := DiskM) ["check", "--pages", "a.json", "--pages", "b.json", "--pages", "c.json"]
          mixedDisk).1
        ["a.json", "b.json", "c.json"] fates "") ∧
    (run (m := DiskM) ["check", "--pages", "a.json", "--pages", "b.json", "--pages", "c.json"]
      mixedDisk).1
      = ⟨1, "Checked a\n",
        "error: parse error in c.json: expected value at line 1 column 1\n"
          ++ "error: page b: unknown component `Image` at Image\n"
          ++ "Error: 2 of 3 pages failed\n"⟩ ∧
    (run (m := DiskM) ["generate", "--pages", "a.json"] mixedDisk).1
      = ⟨0, "Generated a: generated/AStateHolder.kt, generated/AView.kt\n"
          ++ "Emitted compose output to generated\n", ""⟩ := by
  have hparse : Invocation.parse
      ["check", "--pages", "a.json", "--pages", "b.json", "--pages", "c.json"]
      = .run (.generate { pages := ["a.json", "b.json", "c.json"] } true) := by decide +kernel
  have hjob : Resolves mixedDisk { pages := ["a.json", "b.json", "c.json"] }
      ⟨["a.json", "b.json", "c.json"], "generated", .compose, {}⟩ :=
    ⟨none, .compose, by decide +kernel, by decide +kernel, rfl, rfl⟩
  have hfiles : mixedDisk.enumerate ["a.json", "b.json", "c.json"]
      = .ok ["a.json", "b.json", "c.json"] := by decide +kernel
  have hunreadable : (mixedDisk.page "c.json").toOption.isNone = true := by decide +kernel
  obtain ⟨-, hemitted⟩ := run_verdict hparse mixedDisk
  obtain ⟨-, -, fates, hfates, -, haccounts⟩ := hemitted _ _ _ hjob hfiles (List.cons_ne_nil _ _)
    (congrArg Prod.fst (emit_dry _ _ _ _ _))
  refine ⟨⟨fates, hfates, fun hnone => ?_, haccounts⟩, by decide +kernel, by decide +kernel⟩
  obtain ⟨page, hpage⟩ := ((countP_failed_eq_zero hfates).mp hnone).1 "c.json" (by decide)
  rw [hpage] at hunreadable
  cases hunreadable

end Pagewright
