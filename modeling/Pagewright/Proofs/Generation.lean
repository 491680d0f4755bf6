/-
A page is generated as a whole or not at all.

`Wrote` lists the ways in which the sources of a page can meet a disk: both
files are written, or the output directory does not take them, or it cannot be
made.

* `writeInto_wrote` — one of them is what happens;
* `generate_all_or_nothing` — both files are written and nothing else but
  missing directories, or no file is changed; and a page that has been
  generated can be generated again to no effect.
-/
import Pagewright.Proofs.Directories
import Pagewright.Proofs.Placing

namespace Pagewright

open Disk

variable {disk other final : Disk} {output : String} {sources : PageSources}

/-! ### Disks that take the same files -/

/-- Two disks with the same directories, and the same entries where new files could be. -/
structure Disk.Similar (disk other : Disk) : Prop extends Alike disk other where
  temporary : ∀ place n, place.getLast? = some (temporaryName n) →
    other.entryAt place = disk.entryAt place

namespace Disk

theorem Same.similar (h : Same disk other) : Similar disk other :=
  ⟨h.alike, fun place _ _ => h.entryAt place⟩

theorem Similar.symm (h : Similar disk other) : Similar other disk :=
  ⟨h.toAlike.symm, fun place n hplace => (h.temporary place n hplace).symm⟩

theorem Similar.trans {third : Disk} (h : Similar disk other) (h' : Similar other third) :
    Similar disk third :=
  ⟨h.toAlike.trans h'.toAlike, fun place n hplace =>
    (h'.temporary place n hplace).trans (h.temporary place n hplace)⟩

theorem Similar.mem_lastNames (h : Similar disk other) (n : Nat) :
    temporaryName n ∈ other.lastNames ↔ temporaryName n ∈ disk.lastNames := by
  rw [Disk.mem_lastNames, Disk.mem_lastNames]
  refine exists_congr fun place => and_congr_right fun hplace => ?_
  rw [h.temporary place n hplace]

theorem Similar.firstName (h : Similar disk other) : other.firstName = disk.firstName :=
  freshName_congr h.mem_lastNames

theorem Similar.secondName (h : Similar disk other) : other.secondName = disk.secondName := by
  refine freshName_congr fun n => ?_
  rw [List.mem_cons, List.mem_cons, h.firstName, h.mem_lastNames]

/-- Whether a directory takes two files does not depend on other files. -/
theorem Similar.takes (h : Similar disk other) {directory holder view : String}
    (htakes : disk.Takes directory holder view) : other.Takes directory holder view := by
  have habsolute : other.absolute directory = disk.absolute directory := by
    rw [absolute, absolute, h.start]
  refine ⟨?_, ?_, ?_, ?_⟩
  · rw [habsolute, h.firstName, h.toAlike.seat]
    exact htakes.first
  · rw [habsolute, h.secondName, h.toAlike.seat]
    exact htakes.second
  · rw [h.toAlike.seat]
    exact htakes.holder
  · rw [h.toAlike.seat]
    exact htakes.view

end Disk

/-- Files of a page are not where new files could be. -/
theorem similar_withBoth (hsources : sources.Named) {directory : String}
    {holderPlace viewPlace : Place}
    (hholder : disk.seat directory sources.stateHolder.name = some holderPlace)
    (hview : disk.seat directory sources.view.name = some viewPlace) :
    Similar disk (disk.withBoth holderPlace viewPlace sources) := by
  have hput := alike_put_seat hholder sources.stateHolder.content.toUTF8
  refine ⟨hput.trans (alike_put_seat ((hput.seat _ _).trans hview) _), fun place n hplace => ?_⟩
  -- Neither of the two seats has a name that new files are given.
  have hne : place ≠ viewPlace := by
    rintro rfl
    exact (hsources.fresh n).2 (Option.some.inj (hplace.symm.trans (getLast?_of_seat hview)))
  have hne' : place ≠ holderPlace := by
    rintro rfl
    exact (hsources.fresh n).1 (Option.some.inj (hplace.symm.trans (getLast?_of_seat hholder)))
  rw [withBoth, entryAt_put (ne_nil_of_seat hview), if_neg hne,
    entryAt_put (ne_nil_of_seat hholder), if_neg hne']

/-! ### The sources of a page -/

theorem Page.named_of_render {page : Page} {registry : Registry} {settings : Settings}
    (h : page.render registry settings = .ok sources) : sources.Named := by
  obtain ⟨-, -, -, hholder, hview⟩ := Page.render_eq_ok h
  refine ⟨?_, ?_, ?_, fun n => ⟨?_, ?_⟩⟩
  · rw [hholder]
    exact Kotlin.plain_holderFile page.name
  · rw [hview]
    exact Kotlin.plain_viewFile page.name
  · rw [hholder, hview]
    exact Kotlin.holderFile_ne_viewFile page.name page.name
  · rw [hholder]
    exact temporaryName_ne_file n page.name _
  · rw [hview]
    exact temporaryName_ne_file n page.name _

/-! ### Writing into an output directory -/

/-- How writing some sources into an output directory ends, and on which disk. -/
inductive Wrote (sources : PageSources) (output : String) (disk : Disk) :
    Except StorageError Artifacts → Disk → Prop
  | written {next final : Disk} {holderPlace viewPlace : Place} :
    makeDirectories (m := DiskM) output disk = (.ok (), next) →
    next.Takes output sources.stateHolder.name sources.view.name →
    next.seat output sources.stateHolder.name = some holderPlace →
    next.seat output sources.view.name = some viewPlace →
    Same (next.withBoth holderPlace viewPlace sources) final →
    Wrote sources output disk (.ok (sources.artifacts output)) final
  | notTaken {next final : Disk} {refusal : StorageError} :
    makeDirectories (m := DiskM) output disk = (.ok (), next) →
    ¬next.Takes output sources.stateHolder.name sources.view.name →
    Same next final →
    Wrote sources output disk (.error refusal) final
  | notMade {final : Disk} {refusal : StorageError} :
    makeDirectories (m := DiskM) output disk = (.error refusal, final) →
    Wrote sources output disk (.error refusal) final

theorem writeInto_wrote (hsources : sources.Named) (output : String) (disk : Disk) :
    Wrote sources output disk (writeInto (m := DiskM) output sources disk).1
      (writeInto (m := DiskM) output sources disk).2 := by
  cases hmake : makeDirectories (m := DiskM) output disk with
  | mk result next =>
    cases result with
    | error refusal =>
      have hwrite : writeInto (m := DiskM) output sources disk = (.error refusal, next) := by
        rw [writeInto, DiskM.bind_apply, hmake]
        rfl
      rw [hwrite]
      exact .notMade hmake
    | ok made =>
      have hwrite : writeInto (m := DiskM) output sources disk
          = writeSources (m := DiskM) sources output next := by
        rw [writeInto, DiskM.bind_apply, hmake]
      rw [hwrite]
      by_cases htakes : next.Takes output sources.stateHolder.name sources.view.name
      · obtain ⟨holderPlace, hholder⟩ := Option.isSome_iff_exists.mp htakes.holder
        obtain ⟨viewPlace, hview⟩ := Option.isSome_iff_exists.mp htakes.view
        obtain ⟨final, hfinal, hsame⟩ := writeSources_of_takes hsources htakes hholder hview
        rw [hfinal]
        exact .written hmake htakes hholder hview hsame
      · obtain ⟨refusal, final, hfinal, hsame⟩ := writeSources_of_not_takes hsources htakes
        rw [hfinal]
        exact .notTaken hmake htakes hsame

theorem generate_of_failure {page : Page} {registry : Registry} {settings : Settings}
    {failure : Failure} (h : page.render registry settings = .error failure) :
    generate (m := DiskM) page output registry settings disk = (.error failure, disk) := by
  rw [generate, h]
  rfl

theorem generate_of_render {page : Page} {registry : Registry} {settings : Settings}
    (h : page.render registry settings = .ok sources) (disk : Disk) :
    generate (m := DiskM) page output registry settings disk
      = ((writeInto (m := DiskM) output sources disk).1.mapError .storage,
        (writeInto (m := DiskM) output sources disk).2) := by
  rw [generate, h]
  rfl

/-! ### All or nothing -/

/-- A disk that has the same files as before, and no directory less. -/
structure Disk.Untouched (disk final : Disk) : Prop where
  start : final.start = disk.start
  file : ∀ place content,
    final.entryAt place = some (.file content) ↔ disk.entryAt place = some (.file content)
  directory : ∀ place,
    disk.entryAt place = some .directory → final.entryAt place = some .directory

/-- A disk on which the files of a page have been written to an output directory. -/
structure Page.WrittenTo (page : Page) (output : String) (registry : Registry)
    (settings : Settings) (disk : Disk) (artifacts : Artifacts) (final : Disk) : Prop where
  paths : artifacts = ⟨Path.join output (Kotlin.holderFile page.name),
    Path.join output (Kotlin.viewFile page.name)⟩
  contents : ∃ sources root, page.render registry settings = .ok sources ∧
    final.home output = some root ∧
    final.findEntry artifacts.stateHolder = .ok (root ++ [Kotlin.holderFile page.name],
      .file sources.stateHolder.content.toUTF8) ∧
    final.findEntry artifacts.view = .ok (root ++ [Kotlin.viewFile page.name],
      .file sources.view.content.toUTF8) ∧
    ∀ place, place ≠ root ++ [Kotlin.holderFile page.name] →
      place ≠ root ++ [Kotlin.viewFile page.name] →
      final.entryAt place = disk.entryAt place ∨
        disk.entryAt place = none ∧ final.entryAt place = some .directory ∧
          ∃ above ∈ Path.ancestors output, final.home above = some place
  start : final.start = disk.start
  directories : ∀ above ∈ Path.ancestors output, (final.home above).isSome
  again : ∃ same,
    generate (m := DiskM) page output registry settings final = (.ok artifacts, same) ∧
    final.Same same

theorem Disk.Untouched.refl (disk : Disk) : disk.Untouched disk :=
  ⟨rfl, fun _ _ => Iff.rfl, fun _ h => h⟩

theorem Disk.Grows.untouched {paths : List String} (h : Grows paths disk final) :
    disk.Untouched final := by
  refine ⟨h.start, fun place content => ?_, fun place hplace => ?_⟩
  · rcases h.entryAt place with hsame | ⟨hnone, hdirectory, -⟩
    · rw [hsame]
    · rw [hnone, hdirectory]
      constructor <;> exact fun h => absurd h (by simp)
  · exact holdsDirectory_iff.mp (h.holdsDirectory (holdsDirectory_iff.mpr hplace))

/-- If the sources cannot be written, nothing is left but what was made for them. -/
theorem Wrote.same_of_refused {sources : PageSources} {refusal : StorageError}
    (h : Wrote sources output disk (.error refusal) final) :
    Same (makeDirectories (m := DiskM) output disk).2 final := by
  cases h with
  | notTaken hmake _ hsame =>
    rw [hmake]
    exact hsame
  | notMade hmake =>
    rw [hmake]
    exact .refl final

/-- So no file has changed. -/
theorem Wrote.untouched {refusal : StorageError}
    (h : Wrote sources output disk (.error refusal) final) : disk.Untouched final :=
  ((grows_of_makeDirectories rfl).same h.same_of_refused).untouched

section Written

variable {next : Disk} {holderPlace viewPlace : Place} (hsources : sources.Named)
  (htakes : next.Takes output sources.stateHolder.name sources.view.name)
  (hholder : next.seat output sources.stateHolder.name = some holderPlace)
  (hview : next.seat output sources.view.name = some viewPlace)
  (hsame : Same (next.withBoth holderPlace viewPlace sources) final)

include hsources hholder hview hsame

theorem similar_of_written : Similar next final :=
  (similar_withBoth hsources hholder hview).trans hsame.similar

theorem entryAt_holder_of_written :
    final.entryAt holderPlace = some (.file sources.stateHolder.content.toUTF8) := by
  rw [hsame.entryAt, withBoth, entryAt_put (ne_nil_of_seat hview),
    if_neg (ne_of_seat hholder hview hsources.apart), entryAt_put (ne_nil_of_seat hholder),
    if_pos rfl]

omit hsources hholder in
theorem entryAt_view_of_written :
    final.entryAt viewPlace = some (.file sources.view.content.toUTF8) := by
  rw [hsame.entryAt, withBoth, entryAt_put (ne_nil_of_seat hview), if_pos rfl]

omit hsources in
theorem entryAt_of_written {place : Place} (hne : place ≠ holderPlace) (hne' : place ≠ viewPlace) :
    final.entryAt place = next.entryAt place := by
  rw [hsame.entryAt, withBoth, entryAt_put (ne_nil_of_seat hview), if_neg hne',
    entryAt_put (ne_nil_of_seat hholder), if_neg hne]

include htakes

/-- Files that are written once more stay the same. -/
theorem writeInto_again (houtput : output = "" ∨ next.Stands output) :
    ∃ again, writeInto (m := DiskM) output sources final
        = (.ok (sources.artifacts output), again) ∧ Same final again := by
  have hsimilar := similar_of_written hsources hholder hview hsame
  have hmake : makeDirectories (m := DiskM) output final = (.ok (), final) :=
    makeDirectories_of_stands (houtput.imp_right hsimilar.toAlike.stands)
  -- The directories are the same and no new file is left, so the same seats are taken again.
  obtain ⟨again, hagain, hsame'⟩ := writeSources_of_takes hsources (hsimilar.takes htakes)
    ((hsimilar.toAlike.seat _ _).trans hholder) ((hsimilar.toAlike.seat _ _).trans hview)
  refine ⟨again, ?_, hsame'.start, fun place => ?_⟩
  · rw [writeInto, DiskM.bind_apply, hmake]
    exact hagain
  · rw [hsame'.entryAt, withBoth, entryAt_put (ne_nil_of_seat hview),
      entryAt_put (ne_nil_of_seat hholder)]
    split_ifs with hplace hplace'
    · rw [hplace, entryAt_view_of_written hview hsame]
    · rw [hplace', entryAt_holder_of_written hsources hholder hview hsame]
    · rfl

end Written

theorem Page.writtenTo_of_wrote {page : Page} {registry : Registry} {settings : Settings}
    (hrender : page.render registry settings = .ok sources) {artifacts : Artifacts}
    (h : Wrote sources output disk (.ok artifacts) final) :
    page.WrittenTo output registry settings disk artifacts final := by
  have hsources := Page.named_of_render hrender
  obtain ⟨-, -, -, hholderName, hviewName⟩ := Page.render_eq_ok hrender
  cases h with
  | @written next _ holderPlace viewPlace hmake htakes hholder hview hsame =>
    obtain ⟨hgrows, houtput⟩ := grows_of_made hmake
    have hsimilar := similar_of_written hsources hholder hview hsame
    have hholder' := (hsimilar.toAlike.seat _ _).trans hholder
    have hview' := (hsimilar.toAlike.seat _ _).trans hview
    -- Both seats are in the same directory.
    obtain ⟨root, hroot, hholderPlace⟩ := exists_home_of_seat hholder'
    obtain ⟨root', hroot', hviewPlace⟩ := exists_home_of_seat hview'
    obtain rfl : root' = root := Option.some.inj (hroot'.symm.trans hroot)
    obtain ⟨again, hagain, hsame'⟩ := writeInto_again hsources htakes hholder hview hsame houtput
    rw [hholderName] at hholderPlace
    rw [hviewName] at hviewPlace
    constructor
    case paths => rw [PageSources.artifacts, hholderName, hviewName]
    case start => exact hsimilar.start.trans hgrows.start
    case directories =>
      exact fun above => home_ancestors (Option.isSome_iff_exists.mpr ⟨root', hroot⟩)
    case again =>
      refine ⟨again, ?_, hsame'⟩
      rw [generate_of_render hrender, hagain]
      rfl
    case contents =>
      refine ⟨sources, root', hrender, hroot, ?_, ?_, fun place hne hne' => ?_⟩
      · rw [← hholderPlace]
        exact findEntry_of_file hsources.stateHolder hholder'
          (entryAt_holder_of_written hsources hholder hview hsame)
      · rw [← hviewPlace]
        exact findEntry_of_file hsources.view hview' (entryAt_view_of_written hview hsame)
      · rw [← hholderPlace] at hne
        rw [← hviewPlace] at hne'
        rw [entryAt_of_written hholder hview hsame hne hne']
        refine (hgrows.entryAt place).imp_right fun ⟨hnone, hdirectory, above, habove, hhome⟩ => ?_
        exact ⟨hnone, hdirectory, above, habove, (hsimilar.toAlike.home above).trans hhome⟩

/-- **A page is generated as a whole or not at all.**  Either both files hold
the texts that the page renders to, at the paths that are reported, and of the
rest of the disk only directories on the way to the output have been added;
or the disk has exactly the files it had. -/
theorem generate_all_or_nothing (page : Page) (output : String) (registry : Registry)
    (settings : Settings) (disk : Disk) :
    match generate (m := DiskM) page output registry settings disk with
    | (.ok artifacts, final) => page.WrittenTo output registry settings disk artifacts final
    | (.error _, final) => disk.Untouched final := by
  cases hrender : page.render registry settings with
  | error failure =>
    rw [generate_of_failure hrender]
    exact Disk.Untouched.refl disk
  | ok sources =>
    have hwrote := writeInto_wrote (Page.named_of_render hrender) output disk
    rw [generate_of_render hrender]
    cases hresult : (writeInto (m := DiskM) output sources disk).1 with
    | error refusal =>
      rw [hresult] at hwrote
      exact hwrote.untouched
    | ok artifacts =>
      rw [hresult] at hwrote
      exact Page.writtenTo_of_wrote hrender hwrote

end Pagewright
