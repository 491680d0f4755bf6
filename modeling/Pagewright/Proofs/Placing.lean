/-
Both files of a page, or neither.

`Disk.Takes` says that a directory takes two files: there are seats for both,
and for the two new files that become them.  `writeSources` asks for nothing
else:

* `writeSources_of_takes` — both files are at their seats afterwards, and
  nothing else has changed;
* `writeSources_of_not_takes` — otherwise it fails and nothing has changed at
  all: new files are gone again, and a state holder that was written over is
  as it was.
-/
import Pagewright.Generate
import Pagewright.Proofs.Staging

namespace Pagewright

open Disk

variable {disk other : Disk} {directory : String} {sources : PageSources}

/-- Sources under names that can stand beside each other and beside new files. -/
structure PageSources.Named (sources : PageSources) : Prop where
  stateHolder : Path.Plain sources.stateHolder.name
  view : Path.Plain sources.view.name
  apart : sources.stateHolder.name ≠ sources.view.name
  fresh : ∀ n, Disk.temporaryName n ≠ sources.stateHolder.name ∧
    Disk.temporaryName n ≠ sources.view.name

namespace Disk

/-- The names of the next two new files. -/
def firstName (disk : Disk) : String :=
  freshName disk.lastNames

def secondName (disk : Disk) : String :=
  freshName (disk.firstName :: disk.lastNames)

/-- Whether two files can be written into a directory as new files, then moved to their places. -/
structure Takes (disk : Disk) (directory holder view : String) : Prop where
  first : (disk.seat (disk.absolute directory) disk.firstName).isSome
  second : (disk.seat (disk.absolute directory) disk.secondName).isSome
  holder : (disk.seat directory holder).isSome
  view : (disk.seat directory view).isSome

end Disk

/-! ### Reading, restoring and discarding -/

section Files

variable {name : String} {place : Place} (hn : Path.Plain name)

include hn

/-- What a seat holds is a file that is read, or nothing. -/
theorem readExisting_of_seat (h : disk.seat directory name = some place) :
    ∃ previous, readExisting (m := DiskM) (Path.join directory name) disk = (.ok previous, disk) ∧
      disk.entryAt place = previous.map .file := by
  rw [readExisting, DiskM.bind_apply]
  cases hentry : disk.entryAt place with
  | none =>
    rw [read_of_free hn h hentry]
    exact ⟨none, rfl, rfl⟩
  | some entry =>
    cases entry with
    | file content =>
      rw [read_of_file hn h hentry]
      exact ⟨some content, rfl, rfl⟩
    | directory =>
      have hplace := (seat_eq_some.mp h).2
      rw [holdsDirectory_iff.mpr hentry] at hplace
      cases hplace

theorem readExisting_of_no_seat (h : disk.seat directory name = none) :
    readExisting (m := DiskM) (Path.join directory name) disk = (.ok none, disk) ∨
      ∃ refusal, readExisting (m := DiskM) (Path.join directory name) disk
        = (.error refusal, disk) := by
  rw [readExisting, DiskM.bind_apply]
  obtain ⟨refusal, hrefusal⟩ := read_of_no_seat hn h
  rw [hrefusal]
  cases refusal with
  | notFound => exact .inl rfl
  | _ => exact .inr ⟨_, rfl⟩

/-- A file is put back to what it was before it was written. -/
theorem restore_of_file (h : disk.seat directory name = some place) {content : ByteArray}
    (hfile : disk.entryAt place = some (.file content)) (previous : Option ByteArray) :
    ∃ restored, restore (m := DiskM) (Path.join directory name) previous disk = ((), restored) ∧
      Alike disk restored ∧
      ∀ asked, restored.entryAt asked
        = if asked = place then previous.map .file else disk.entryAt asked := by
  cases previous with
  | some old =>
    refine ⟨disk.put place (.file old), ?_, alike_put_seat h old, entryAt_put (ne_nil_of_seat h)⟩
    rw [restore, DiskM.bind_apply, write_of_seat hn h]
    rfl
  | none =>
    refine ⟨disk.erase place, ?_, alike_erase_seat h, entryAt_erase (ne_nil_of_seat h)⟩
    rw [restore, DiskM.bind_apply, remove_of_file hn h hfile]
    rfl

theorem discard_of_file (h : disk.seat directory name = some place) {content : ByteArray}
    (hfile : disk.entryAt place = some (.file content)) :
    discard (m := DiskM) (Path.join directory name) disk = ((), disk.erase place) := by
  rw [discard, DiskM.bind_apply, remove_of_file hn h hfile]
  rfl

end Files

/-- A file that is moved leaves the directories as they are. -/
theorem alike_move {root name name' : String} {place target : Place}
    (hplace : disk.seat root name = some place)
    (htarget : disk.seat directory name' = some target) (content : ByteArray) :
    Alike disk ((disk.erase place).put target (.file content)) := by
  have herase := alike_erase_seat hplace
  rw [← herase.seat] at htarget
  exact herase.trans (alike_put_seat htarget content)

/-! ### Moving two new files to their places -/

/-- Two new files in a directory, and the places where they are. -/
structure Disk.Staged (disk : Disk) (root first second : String) (place place' : Place)
    (content content' : ByteArray) : Prop where
  plain : Path.Plain first
  plain' : Path.Plain second
  apart : first ≠ second
  seat : disk.seat root first = some place
  seat' : disk.seat root second = some place'
  file : disk.entryAt place = some (.file content)
  file' : disk.entryAt place' = some (.file content')

section Moves

variable {root first second holder view : String} {place place' holderPlace viewPlace : Place}
  {content content' : ByteArray} (h : disk.Staged root first second place place' content content')

include h

theorem Disk.Staged.file_erase : (disk.erase place').entryAt place = some (.file content) := by
  rw [entryAt_erase (ne_nil_of_seat h.seat'), if_neg (ne_of_seat h.seat h.seat' h.apart), h.file]

theorem Disk.Staged.file_erase' : (disk.erase place).entryAt place' = some (.file content') := by
  rw [entryAt_erase (ne_nil_of_seat h.seat), if_neg (ne_of_seat h.seat' h.seat h.apart.symm),
    h.file']

theorem Disk.Staged.discard_first :
    discard (m := DiskM) (Path.join root first) disk = ((), disk.erase place) ∧
      discard (m := DiskM) (Path.join root first) (disk.erase place')
        = ((), (disk.erase place').erase place) :=
  ⟨discard_of_file h.plain h.seat h.file, discard_of_file h.plain
    (((alike_erase_seat h.seat').seat root first).trans h.seat) h.file_erase⟩

theorem Disk.Staged.discard_second :
    discard (m := DiskM) (Path.join root second) disk = ((), disk.erase place') ∧
      discard (m := DiskM) (Path.join root second) (disk.erase place)
        = ((), (disk.erase place).erase place') :=
  ⟨discard_of_file h.plain' h.seat' h.file', discard_of_file h.plain'
    (((alike_erase_seat h.seat).seat root second).trans h.seat') h.file_erase'⟩

/-- The second new file stays where it is while the first one is moved. -/
theorem Disk.Staged.file_move (hname : second ≠ holder)
    (hholderPlace : disk.seat directory holder = some holderPlace) :
    ((disk.erase place).put holderPlace (.file content)).entryAt place'
      = some (.file content') := by
  rw [entryAt_put (ne_nil_of_seat hholderPlace), if_neg (ne_of_seat h.seat' hholderPlace hname),
    h.file_erase']

variable (hholder : Path.Plain holder) (hview : Path.Plain view)

include hholder

/-- If the state holder cannot be moved, both new files are removed. -/
theorem placeBoth_of_no_holder_seat (hnone : disk.seat directory holder = none) (view : String) :
    ∃ refusal final, placeBoth (m := DiskM) (Path.join root first) (Path.join root second)
        ⟨Path.join directory holder, view⟩ disk = (.error refusal, final) ∧
      Same ((disk.erase place).erase place') final := by
  rcases readExisting_of_no_seat hholder hnone with hread | ⟨refusal, hread⟩
  · -- There is nothing to read, but nothing can be moved there either.
    obtain ⟨refusal, hrename⟩ := rename_of_no_seat h.plain hholder h.seat h.file hnone
    refine ⟨refusal, _, ?_, Same.refl _⟩
    rw [placeBoth, DiskM.bind_apply, hread]
    show ((FileSystem.rename _ _ : DiskM _) >>= _) disk = _
    rw [DiskM.bind_apply, hrename]
    show ((discard _ : DiskM _) >>= _) disk = _
    rw [DiskM.bind_apply, h.discard_first.1]
    show ((discard _ : DiskM _) >>= _) _ = _
    rw [DiskM.bind_apply, h.discard_second.2]
    rfl
  · -- Here the new files are removed in the other order.
    refine ⟨refusal, (disk.erase place').erase place, ?_, rfl, fun asked => ?_⟩
    · rw [placeBoth, DiskM.bind_apply, hread]
      show ((discard _ : DiskM _) >>= _) disk = _
      rw [DiskM.bind_apply, h.discard_second.1]
      show ((discard _ : DiskM _) >>= _) _ = _
      rw [DiskM.bind_apply, h.discard_first.2]
      rfl
    · rw [entryAt_erase (ne_nil_of_seat h.seat), entryAt_erase (ne_nil_of_seat h.seat'),
        entryAt_erase (ne_nil_of_seat h.seat'), entryAt_erase (ne_nil_of_seat h.seat)]
      split_ifs <;> rfl

variable (hnames : first ≠ holder ∧ second ≠ holder)
  (hholderPlace : disk.seat directory holder = some holderPlace)

include hview hnames hholderPlace

theorem placeBoth_of_seats (hviewPlace : disk.seat directory view = some viewPlace) :
    placeBoth (m := DiskM) (Path.join root first) (Path.join root second)
        ⟨Path.join directory holder, Path.join directory view⟩ disk
      = (.ok (), (((disk.erase place).put holderPlace (.file content)).erase place').put viewPlace
          (.file content')) := by
  obtain ⟨previous, hprevious, -⟩ := readExisting_of_seat hholder hholderPlace
  -- The first move leaves both directories as they are, so the second one finds its way.
  have halike := alike_move h.seat hholderPlace content
  rw [placeBoth, DiskM.bind_apply, hprevious]
  show ((FileSystem.rename _ _ : DiskM _) >>= _) disk = _
  rw [DiskM.bind_apply, rename_of_seat h.plain hholder h.seat h.file hholderPlace]
  show ((FileSystem.rename _ _ : DiskM _) >>= _) _ = _
  rw [DiskM.bind_apply, rename_of_seat h.plain' hview ((halike.seat root second).trans h.seat')
    (h.file_move hnames.2 hholderPlace) ((halike.seat directory view).trans hviewPlace)]
  rfl

/-- If the view cannot be moved, the state holder is put back to what it was. -/
theorem placeBoth_of_no_view_seat (hnone : disk.seat directory view = none) :
    ∃ refusal final, placeBoth (m := DiskM) (Path.join root first) (Path.join root second)
        ⟨Path.join directory holder, Path.join directory view⟩ disk = (.error refusal, final) ∧
      Same ((disk.erase place).erase place') final := by
  obtain ⟨previous, hread, hprevious⟩ := readExisting_of_seat hholder hholderPlace
  have halike := alike_move h.seat hholderPlace content
  have hstill := h.file_move hnames.2 hholderPlace
  have hseat := (halike.seat root second).trans h.seat'
  have hwritten : ((disk.erase place).put holderPlace (.file content)).entryAt holderPlace
      = some (.file content) := by
    rw [entryAt_put (ne_nil_of_seat hholderPlace), if_pos rfl]
  obtain ⟨refusal, hrename⟩ := rename_of_no_seat h.plain' hview hseat hstill
    ((halike.seat directory view).trans hnone)
  obtain ⟨restored, hrestore, hsame, hentries⟩ := restore_of_file hholder
    ((halike.seat directory holder).trans hholderPlace) hwritten previous
  have hfile' : restored.entryAt place' = some (.file content') := by
    rw [hentries, if_neg (ne_of_seat h.seat' hholderPlace hnames.2), hstill]
  have hdiscard := discard_of_file h.plain' ((hsame.seat root second).trans hseat) hfile'
  refine ⟨refusal, restored.erase place', ?_, (halike.trans hsame).start, fun asked => ?_⟩
  · rw [placeBoth, DiskM.bind_apply, hread]
    show ((FileSystem.rename _ _ : DiskM _) >>= _) disk = _
    rw [DiskM.bind_apply, rename_of_seat h.plain hholder h.seat h.file hholderPlace]
    show ((FileSystem.rename _ _ : DiskM _) >>= _) _ = _
    rw [DiskM.bind_apply, hrename]
    show ((restore _ _ : DiskM _) >>= _) _ = _
    rw [DiskM.bind_apply, hrestore]
    show ((discard _ : DiskM _) >>= _) _ = _
    rw [DiskM.bind_apply, hdiscard]
    rfl
  · -- Its seat holds what was read there; everywhere else the moves cancel.
    have hapart : holderPlace ≠ place := (ne_of_seat h.seat hholderPlace hnames.1).symm
    have hapart' : holderPlace ≠ place' := (ne_of_seat h.seat' hholderPlace hnames.2).symm
    simp only [entryAt_erase (ne_nil_of_seat h.seat), entryAt_erase (ne_nil_of_seat h.seat'),
      hentries, entryAt_put (ne_nil_of_seat hholderPlace)]
    by_cases hholds : asked = holderPlace
    · rw [hholds, if_neg hapart', if_neg hapart', if_neg hapart, if_pos rfl, hprevious]
    · rw [if_neg hholds, if_neg hholds]

omit hnames hholderPlace in
/-- If one of two files has no seat, both new files are removed and the other one is as it was. -/
theorem placeBoth_of_no_seat (hnames : first ≠ holder ∧ second ≠ holder)
    (hnone : disk.seat directory holder = none ∨ disk.seat directory view = none) :
    ∃ refusal final, placeBoth (m := DiskM) (Path.join root first) (Path.join root second)
        ⟨Path.join directory holder, Path.join directory view⟩ disk = (.error refusal, final) ∧
      Same ((disk.erase place).erase place') final := by
  cases hholderPlace : disk.seat directory holder with
  | none => exact placeBoth_of_no_holder_seat h hholder hholderPlace _
  | some holderPlace =>
    have hviewPlace : disk.seat directory view = none :=
      hnone.resolve_left (by rw [hholderPlace]; exact Option.some_ne_none _)
    exact placeBoth_of_no_view_seat h hholder hview hnames hholderPlace hviewPlace

end Moves

/-! ### New files -/

namespace Disk

theorem mem_lastNames_put {place : Place} {entry : DiskEntry} {last name : String}
    (h : place.getLast? = some last) :
    name ∈ (disk.put place entry).lastNames ↔ name = last ∨ name ∈ disk.lastNames := by
  have hplace : place ≠ [] := by
    rintro rfl
    cases h
  rw [mem_lastNames, mem_lastNames]
  constructor
  · rintro ⟨asked, hlast, hentry⟩
    rw [entryAt_put hplace] at hentry
    split_ifs at hentry with hasked
    · exact .inl (Option.some.inj (hlast.symm.trans (hasked ▸ h)))
    · exact .inr ⟨asked, hlast, hentry⟩
  · rintro (rfl | ⟨asked, hlast, hentry⟩)
    · exact ⟨place, h, by rw [entryAt_put hplace, if_pos rfl]; exact Option.some_ne_none _⟩
    · refine ⟨asked, hlast, ?_⟩
      rw [entryAt_put hplace]
      split_ifs
      · exact Option.some_ne_none _
      · exact hentry

theorem firstName_ne_secondName (disk : Disk) : disk.firstName ≠ disk.secondName :=
  fun h => freshName_not_mem (disk.firstName :: disk.lastNames)
    (by rw [← secondName, ← h]; exact List.mem_cons_self)

theorem plain_firstName (disk : Disk) : Path.Plain disk.firstName :=
  plain_freshName _

theorem plain_secondName (disk : Disk) : Path.Plain disk.secondName :=
  plain_freshName _

/-- Once there is a new file, the next one takes the second name. -/
theorem firstName_put {place : Place} (h : place.getLast? = some disk.firstName)
    (entry : DiskEntry) : (disk.put place entry).firstName = disk.secondName := by
  refine freshName_congr fun n => ?_
  rw [mem_lastNames_put h, List.mem_cons]

end Disk

theorem PageSources.Named.freshName_ne (hsources : sources.Named) (names : List String) :
    freshName names ≠ sources.stateHolder.name ∧ freshName names ≠ sources.view.name := by
  obtain ⟨n, hname, -⟩ := freshName_spec names
  rw [hname]
  exact hsources.fresh n

section Staged

variable {first second root : String} {place place' : Place}
  (hplace : disk.seat root first = some place) (hplace' : disk.seat root second = some place')

include hplace hplace'

theorem alike_staged (content content' : ByteArray) :
    Alike disk ((disk.put place (.file content)).put place' (.file content')) := by
  have hput := alike_put_seat hplace content
  exact hput.trans (alike_put_seat ((hput.seat root second).trans hplace') content')

theorem staged_put (hfirst : Path.Plain first) (hsecond : Path.Plain second)
    (hne : first ≠ second) (content content' : ByteArray) :
    ((disk.put place (.file content)).put place' (.file content')).Staged root first second
      place place' content content' := by
  have halike := alike_staged hplace hplace' content content'
  constructor
  case plain => exact hfirst
  case plain' => exact hsecond
  case apart => exact hne
  case seat => exact (halike.seat root first).trans hplace
  case seat' => exact (halike.seat root second).trans hplace'
  case file =>
    rw [entryAt_put (ne_nil_of_seat hplace'), if_neg (ne_of_seat hplace hplace' hne),
      entryAt_put (ne_nil_of_seat hplace), if_pos rfl]
  case file' => rw [entryAt_put (ne_nil_of_seat hplace'), if_pos rfl]

/-- New files that are removed leave nothing behind. -/
theorem same_unstaged (hfree : disk.entryAt place = none) (hfree' : disk.entryAt place' = none)
    (content content' : ByteArray) :
    Same disk ((((disk.put place (.file content)).put place' (.file content')).erase place).erase
      place') := by
  refine ⟨rfl, fun asked => ?_⟩
  rw [entryAt_erase (ne_nil_of_seat hplace'), entryAt_erase (ne_nil_of_seat hplace),
    entryAt_put (ne_nil_of_seat hplace'), entryAt_put (ne_nil_of_seat hplace)]
  split_ifs with hasked hasked'
  · rw [hasked, hfree']
  · rw [hasked', hfree]
  · rfl

end Staged

/-! ### Writing both files -/

/-- The disk with two files. -/
def Disk.withBoth (disk : Disk) (holderPlace viewPlace : Place) (sources : PageSources) : Disk :=
  (disk.put holderPlace (.file sources.stateHolder.content.toUTF8)).put viewPlace
    (.file sources.view.content.toUTF8)

/-- Where the files of some sources are in a directory. -/
def PageSources.artifacts (sources : PageSources) (directory : String) : Artifacts :=
  ⟨Path.join directory sources.stateHolder.name, Path.join directory sources.view.name⟩

section Writing

variable {place place' : Place}
  (hplace : disk.seat (disk.absolute directory) disk.firstName = some place)
  (hplace' : disk.seat (disk.absolute directory) disk.secondName = some place')

include hplace in
theorem stage_second (content : ByteArray) :
    (disk.put place (.file content)).seat (disk.absolute directory)
        (disk.put place (.file content)).firstName
      = disk.seat (disk.absolute directory) disk.secondName := by
  rw [firstName_put (getLast?_of_seat hplace), (alike_put_seat hplace content).seat]

include hplace hplace'

theorem staged_both (sources : PageSources) :
    ((disk.put place (.file sources.stateHolder.content.toUTF8)).put place'
        (.file sources.view.content.toUTF8)).Staged (disk.absolute directory) disk.firstName
      disk.secondName place place' sources.stateHolder.content.toUTF8
      sources.view.content.toUTF8 :=
  staged_put hplace hplace' (plain_firstName disk) (plain_secondName disk)
    (firstName_ne_secondName disk) _ _

/-- With both new files on the disk, all that is left is to move them. -/
theorem writeSources_eq {result : Except StorageError Unit} {final : Disk}
    (hplaced : placeBoth (m := DiskM) (Path.join (disk.absolute directory) disk.firstName)
      (Path.join (disk.absolute directory) disk.secondName) (sources.artifacts directory)
      ((disk.put place (.file sources.stateHolder.content.toUTF8)).put place'
        (.file sources.view.content.toUTF8)) = (result, final)) :
    writeSources (m := DiskM) sources directory disk
      = (result.map fun () => sources.artifacts directory, final) := by
  have hseat := (stage_second hplace sources.stateHolder.content.toUTF8).trans hplace'
  have hstage := stage_of_seat sources.view.content.toUTF8 hseat
  rw [← firstName, firstName_put (getLast?_of_seat hplace)] at hstage
  rw [writeSources, DiskM.bind_apply, stage_of_seat _ hplace]
  show ((FileSystem.stage _ _ : DiskM _) >>= _) (disk.put place _) = _
  rw [DiskM.bind_apply, hstage]
  show ((placeBoth _ (Path.join (disk.absolute directory) _) (sources.artifacts directory) :
    DiskM _) >>= _) ((disk.put place _).put place' _) = _
  rw [DiskM.bind_apply, ← firstName, hplaced]
  cases result <;> rfl

end Writing

theorem entryAt_of_secondName {place : Place} (h : place.getLast? = some disk.secondName) :
    disk.entryAt place = none := by
  by_contra hentry
  exact freshName_not_mem (disk.firstName :: disk.lastNames)
    (List.mem_cons_of_mem _ (mem_lastNames.mpr ⟨place, h, hentry⟩))

theorem entryAt_of_firstName {place : Place} (h : place.getLast? = some disk.firstName) :
    disk.entryAt place = none :=
  entryAt_of_freshName h

/-- A directory that takes two files has them afterwards, and nothing else has changed. -/
theorem writeSources_of_takes (hsources : sources.Named)
    (h : disk.Takes directory sources.stateHolder.name sources.view.name)
    {holderPlace viewPlace : Place}
    (hholderPlace : disk.seat directory sources.stateHolder.name = some holderPlace)
    (hviewPlace : disk.seat directory sources.view.name = some viewPlace) :
    ∃ final, writeSources (m := DiskM) sources directory disk
        = (.ok (sources.artifacts directory), final) ∧
      Same (disk.withBoth holderPlace viewPlace sources) final := by
  obtain ⟨place, hplace⟩ := Option.isSome_iff_exists.mp h.first
  obtain ⟨place', hplace'⟩ := Option.isSome_iff_exists.mp h.second
  have hfirst := hsources.freshName_ne disk.lastNames
  have hsecond := hsources.freshName_ne (disk.firstName :: disk.lastNames)
  have halike := alike_staged hplace hplace' sources.stateHolder.content.toUTF8
    sources.view.content.toUTF8
  have hplaced := placeBoth_of_seats (staged_both hplace hplace' sources) hsources.stateHolder
    hsources.view ⟨hfirst.1, hsecond.1⟩ ((halike.seat _ _).trans hholderPlace)
    ((halike.seat _ _).trans hviewPlace)
  refine ⟨_, writeSources_eq hplace hplace' hplaced, rfl, fun asked => ?_⟩
  -- The places of the new files were free, and are neither of the two seats.
  have hfree := entryAt_of_firstName (getLast?_of_seat hplace)
  have hfree' := entryAt_of_secondName (getLast?_of_seat hplace')
  have hplaces := ne_of_seat hplace hplace' (firstName_ne_secondName disk)
  have hholder := ne_of_seat hplace hholderPlace hfirst.1
  have hholder' := ne_of_seat hplace' hholderPlace hsecond.1
  have hview := ne_of_seat hplace hviewPlace hfirst.2
  have hview' := ne_of_seat hplace' hviewPlace hsecond.2
  simp only [withBoth, entryAt_put (ne_nil_of_seat hviewPlace),
    entryAt_put (ne_nil_of_seat hholderPlace), entryAt_erase (ne_nil_of_seat hplace),
    entryAt_erase (ne_nil_of_seat hplace'), entryAt_put (ne_nil_of_seat hplace),
    entryAt_put (ne_nil_of_seat hplace')]
  grind

section NotTaken

theorem writeSources_of_no_first (h : disk.seat (disk.absolute directory) disk.firstName = none)
    (sources : PageSources) :
    ∃ refusal, writeSources (m := DiskM) sources directory disk = (.error refusal, disk) := by
  obtain ⟨refusal, hstage⟩ := stage_of_no_seat sources.stateHolder.content.toUTF8 h
  refine ⟨refusal, ?_⟩
  rw [writeSources, DiskM.bind_apply, hstage]
  rfl

variable {place place' : Place}
  (hplace : disk.seat (disk.absolute directory) disk.firstName = some place)

include hplace

/-- If there is no place for the second new file, the first one is removed. -/
theorem writeSources_of_no_second
    (h : disk.seat (disk.absolute directory) disk.secondName = none) (sources : PageSources) :
    ∃ refusal final, writeSources (m := DiskM) sources directory disk = (.error refusal, final) ∧
      Same disk final := by
  -- The first new file is in nobody's way: there was no place for the second one before.
  have hput := alike_put_seat hplace sources.stateHolder.content.toUTF8
  obtain ⟨refusal, hstage⟩ := stage_of_no_seat sources.view.content.toUTF8
    ((stage_second hplace sources.stateHolder.content.toUTF8).trans h)
  have hdiscard := discard_of_file (plain_firstName disk) ((hput.seat _ _).trans hplace)
    (by rw [entryAt_put (ne_nil_of_seat hplace), if_pos rfl])
  refine ⟨refusal, (disk.put place (.file sources.stateHolder.content.toUTF8)).erase place,
    ?_, rfl, fun asked => ?_⟩
  · rw [writeSources, DiskM.bind_apply, stage_of_seat _ hplace]
    show ((FileSystem.stage _ _ : DiskM _) >>= _) _ = _
    rw [DiskM.bind_apply, hstage]
    show ((discard _ : DiskM _) >>= _) _ = _
    rw [DiskM.bind_apply, ← firstName, hdiscard]
    rfl
  · rw [entryAt_erase (ne_nil_of_seat hplace), entryAt_put (ne_nil_of_seat hplace)]
    split_ifs with hasked
    · rw [hasked, entryAt_of_firstName (getLast?_of_seat hplace)]
    · rfl

/-- If one of the files has no seat, both new files are removed. -/
theorem writeSources_of_no_seat
    (hplace' : disk.seat (disk.absolute directory) disk.secondName = some place')
    (hsources : sources.Named)
    (hnone : disk.seat directory sources.stateHolder.name = none ∨
      disk.seat directory sources.view.name = none) :
    ∃ refusal final, writeSources (m := DiskM) sources directory disk = (.error refusal, final) ∧
      Same disk final := by
  have hfirst := hsources.freshName_ne disk.lastNames
  have hsecond := hsources.freshName_ne (disk.firstName :: disk.lastNames)
  have halike := alike_staged hplace hplace' sources.stateHolder.content.toUTF8
    sources.view.content.toUTF8
  rw [← halike.seat, ← halike.seat directory sources.view.name] at hnone
  obtain ⟨refusal, final, hplaced, hsame⟩ := placeBoth_of_no_seat
    (staged_both hplace hplace' sources) hsources.stateHolder hsources.view
    ⟨hfirst.1, hsecond.1⟩ hnone
  have hunstaged := same_unstaged hplace hplace'
    (entryAt_of_firstName (getLast?_of_seat hplace))
    (entryAt_of_secondName (getLast?_of_seat hplace')) sources.stateHolder.content.toUTF8
    sources.view.content.toUTF8
  exact ⟨refusal, final, writeSources_eq hplace hplace' hplaced, hunstaged.trans hsame⟩

end NotTaken

/-- A directory that does not take two files is left as it was. -/
theorem writeSources_of_not_takes (hsources : sources.Named)
    (h : ¬disk.Takes directory sources.stateHolder.name sources.view.name) :
    ∃ refusal final, writeSources (m := DiskM) sources directory disk = (.error refusal, final) ∧
      Same disk final := by
  cases hplace : disk.seat (disk.absolute directory) disk.firstName with
  | none =>
    obtain ⟨refusal, hwrite⟩ := writeSources_of_no_first hplace sources
    exact ⟨refusal, disk, hwrite, Same.refl disk⟩
  | some place =>
    cases hplace' : disk.seat (disk.absolute directory) disk.secondName with
    | none => exact writeSources_of_no_second hplace hplace' sources
    | some place' =>
      -- Both new files are there, so a seat must be missing.
      refine writeSources_of_no_seat hplace hplace' hsources ?_
      by_contra hboth
      rw [not_or, ← ne_eq, ← ne_eq, Option.ne_none_iff_isSome, Option.ne_none_iff_isSome] at hboth
      exact h ⟨by rw [hplace]; rfl, by rw [hplace']; rfl, hboth.1, hboth.2⟩

end Pagewright
