/-
A dry run predicts what a real run reports.

Both runs of a batch refuse a page for the same reasons, in the same order:
first for the names that earlier pages have claimed, then for what the page
itself says.  Only after that does the real run turn to the disk, so whatever
the disk makes of it stands where the dry run reports success.

* `predicts_generate` — one page, on any disk;
* `generateUnclaimed_predicts` — so it is all through a batch, although the
  real run changes the disk from page to page;
* `dryRun_predicts` — a dry run of a batch, alone and into an output directory.
-/
import Pagewright.Proofs.Batch

namespace Pagewright

open Disk

variable {output : String} {registry : Registry} {settings : Settings}

/-- What the report of a dry run says about the report of a real run. -/
structure PageReport.Predicts (dry real : PageReport) : Prop where
  page : dry.page = real.page
  /-- Success is predicted for pages that are written, and for those that only
  the disk refuses. -/
  ok_iff : dry.outcome = .ok none ↔
    (∃ artifacts, real.outcome = .ok (some artifacts)) ∨
      ∃ refusal, real.outcome = .error (.storage refusal)
  /-- Everything else that is predicted is a failure, and comes true. -/
  failure : dry.outcome ≠ .ok none →
    ∃ failure, dry.outcome = .error failure ∧ real.outcome = .error failure
  storage : ∀ refusal, dry.outcome ≠ .error (.storage refusal)

/-! ### One page -/

/-- A failure that has nothing to do with the disk is predicted as it is. -/
theorem predicts_failure (page : String) {failure : Failure}
    (h : ∀ refusal, failure ≠ .storage refusal) :
    (PageReport.mk page (.error failure)).Predicts ⟨page, .error failure⟩ := by
  constructor
  case page => rfl
  case ok_iff =>
    constructor
    · exact fun hok => by cases hok
    · rintro (⟨artifacts, hok⟩ | ⟨refusal, hrefusal⟩)
      · cases hok
      · exact absurd (Except.error.inj hrefusal) (h refusal)
  case failure => exact fun _ => ⟨failure, rfl, rfl⟩
  case storage => exact fun refusal hrefusal => h refusal (Except.error.inj hrefusal)

/-- Success is predicted for whatever can become of the sources of a page. -/
theorem predicts_written (page : String) (result : Except StorageError Artifacts) :
    (PageReport.mk page (.ok none)).Predicts
      ⟨page, (result.mapError Failure.storage).map some⟩ := by
  constructor
  case page => rfl
  case ok_iff =>
    refine ⟨fun _ => ?_, fun _ => rfl⟩
    cases result with
    | ok artifacts => exact .inl ⟨artifacts, rfl⟩
    | error refusal => exact .inr ⟨refusal, rfl⟩
  case failure => exact fun h => absurd rfl h
  case storage => exact fun refusal h => by cases h

/-- **Rendering a page predicts what generating it reports,** on any disk. -/
theorem predicts_generate (page : Page) (disk : Disk) :
    (PageReport.mk page.name ((page.render registry settings).map fun _ => none)).Predicts
      ⟨page.name, (generate (m := DiskM) page output registry settings disk).1.map some⟩ := by
  cases hrender : page.render registry settings with
  | error failure =>
    rw [generate_of_failure hrender]
    refine predicts_failure page.name fun refusal hrefusal => ?_
    have hpage : (Failure.storage refusal).IsOfPage := Page.isOfPage_of_render (hrefusal ▸ hrender)
    exact hpage
  | ok sources =>
    rw [generate_of_render hrender]
    exact predicts_written page.name _

/-! ### A batch -/

theorem generateUnclaimed_dry_of_unclaimed {claimed : List String} {page : Page}
    {pages : List Page} {disk : Disk} (h : Kotlin.stateHolderType page.name ∉ claimed) :
    generateUnclaimed (m := DiskM) output registry settings true claimed (page :: pages) disk
      = (⟨page.name, (page.render registry settings).map fun _ => none⟩ ::
          (generateUnclaimed (m := DiskM) output registry settings true
            (Kotlin.stateHolderType page.name :: claimed) pages disk).1,
        (generateUnclaimed (m := DiskM) output registry settings true
          (Kotlin.stateHolderType page.name :: claimed) pages disk).2) :=
  generateUnclaimed_next h

/-- A dry run leaves the disk alone. -/
theorem generateUnclaimed_dry_snd : ∀ (pages : List Page) (claimed : List String) (disk : Disk),
    (generateUnclaimed (m := DiskM) output registry settings true claimed pages disk).2 = disk
  | [], _, _ => rfl
  | page :: pages, claimed, disk => by
    by_cases hpage : Kotlin.stateHolderType page.name ∈ claimed
    · rw [generateUnclaimed_of_claimed hpage, generateUnclaimed_dry_snd]
    · rw [generateUnclaimed_dry_of_unclaimed hpage, generateUnclaimed_dry_snd]

/-- Both runs make the same claims, so that they agree on every page, whatever
the disks are on which its turn comes. -/
theorem generateUnclaimed_predicts : ∀ (pages : List Page) (claimed : List String)
    (disk current : Disk), List.Forall₂ PageReport.Predicts
      (generateUnclaimed (m := DiskM) output registry settings true claimed pages disk).1
      (generateUnclaimed (m := DiskM) output registry settings false claimed pages current).1
  | [], _, _, _ => .nil
  | page :: pages, claimed, disk, current => by
    by_cases hpage : Kotlin.stateHolderType page.name ∈ claimed
    · rw [generateUnclaimed_of_claimed hpage, generateUnclaimed_of_claimed hpage]
      exact .cons (predicts_failure page.name fun _ h => by cases h)
        (generateUnclaimed_predicts pages _ disk current)
    · rw [generateUnclaimed_dry_of_unclaimed hpage, generateUnclaimed_of_unclaimed hpage]
      exact .cons (predicts_generate page current) (generateUnclaimed_predicts pages _ disk _)

/-! ### An output directory -/

theorem emit_dry (pages : List Page) (output : String) (registry : Registry)
    (settings : Settings) (disk : Disk) :
    emit (m := DiskM) pages output registry settings true disk
      = (.ok (generateBatch (m := DiskM) pages output registry settings true disk).1,
        (generateBatch (m := DiskM) pages output registry settings true disk).2) :=
  rfl

theorem emit_of_made {pages : List Page} {disk next : Disk}
    (h : makeDirectories (m := DiskM) output disk = (.ok (), next)) :
    emit (m := DiskM) pages output registry settings false disk
      = (.ok (generateBatch (m := DiskM) pages output registry settings false next).1,
        (generateBatch (m := DiskM) pages output registry settings false next).2) := by
  rw [emit, if_neg Bool.false_ne_true, DiskM.bind_apply, h]
  rfl

theorem emit_of_refused {pages : List Page} {disk next : Disk} {refusal : StorageError}
    (h : makeDirectories (m := DiskM) output disk = (.error refusal, next)) :
    emit (m := DiskM) pages output registry settings false disk
      = (.error (.storage refusal), next) := by
  rw [emit, if_neg Bool.false_ne_true, DiskM.bind_apply, h]
  rfl

/-- **A dry run predicts the real run.**  It leaves the disk alone, has a report
for every page, and foretells each report of the real run up to what the disk
refuses.  Into an output directory it always reports, and foretells the reports
of the real run wherever there are any; there are none only if the directory
cannot be made, and then no file has changed. -/
theorem dryRun_predicts (pages : List Page) (output : String) (registry : Registry)
    (settings : Settings) (disk : Disk) :
    (generateBatch (m := DiskM) pages output registry settings true disk).2 = disk ∧
    List.Forall₂ PageReport.Predicts
      (generateBatch (m := DiskM) pages output registry settings true disk).1
      (generateBatch (m := DiskM) pages output registry settings false disk).1 ∧
    ∃ dry, emit (m := DiskM) pages output registry settings true disk = (.ok dry, disk) ∧
      match emit (m := DiskM) pages output registry settings false disk with
      | (.ok real, _) => List.Forall₂ PageReport.Predicts dry real
      | (.error failure, final) =>
        (∃ refusal, failure = .storage refusal ∧
          makeDirectories (m := DiskM) output disk = (.error refusal, final)) ∧
        disk.Untouched final := by
  have hdisk : (generateBatch (m := DiskM) pages output registry settings true disk).2 = disk :=
    generateUnclaimed_dry_snd pages [] disk
  have hbatch (current : Disk) : List.Forall₂ PageReport.Predicts
      (generateBatch (m := DiskM) pages output registry settings true disk).1
      (generateBatch (m := DiskM) pages output registry settings false current).1 :=
    generateUnclaimed_predicts pages [] disk current
  refine ⟨hdisk, hbatch disk,
    (generateBatch (m := DiskM) pages output registry settings true disk).1, ?_, ?_⟩
  · rw [emit_dry, hdisk]
  · cases hmake : makeDirectories (m := DiskM) output disk with
    | mk result next =>
      cases result with
      | ok made =>
        rw [emit_of_made hmake]
        exact hbatch next
      | error refusal =>
        rw [emit_of_refused hmake]
        exact ⟨⟨refusal, rfl, rfl⟩, (grows_of_refused hmake).1.untouched⟩

end Pagewright
