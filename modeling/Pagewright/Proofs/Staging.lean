/-
Files that come, move and go.

`Disk.seat` is where a file of some name can be put in a directory: its spot,
unless a directory is there.  The operations on files read and change the disk
at seats only.

* `freshName_spec` — the name of a new file is the first that no entry has;
* `stage_of_seat`, `rename_of_seat`, `write_of_seat`, `remove_of_file` — what
  the operations do, each with what happens where there is no seat.
-/
import Mathlib.Data.List.Nodup
import Pagewright.Proofs.Disk

namespace Pagewright

theorem DiskM.bind_apply {α β : Type} (first : DiskM α) (second : α → DiskM β)
    (disk : Disk) : (first >>= second) disk = second (first disk).1 (first disk).2 :=
  rfl

theorem DiskM.change_ok {step : Disk → Except StorageError Disk} {disk next : Disk}
    (h : step disk = .ok next) : DiskM.change step disk = (.ok (), next) := by
  rw [DiskM.change, h]

theorem DiskM.change_error {step : Disk → Except StorageError Disk} {disk : Disk}
    {refusal : StorageError} (h : step disk = .error refusal) :
    DiskM.change step disk = (.error refusal, disk) := by
  rw [DiskM.change, h]

theorem DiskM.stage_ok {disk next : Disk} {directory path : String} {content : ByteArray}
    (h : disk.stage directory content = .ok (path, next)) :
    FileSystem.stage (m := DiskM) directory content disk = (.ok path, next) := by
  simp only [FileSystem.stage, h]

theorem DiskM.stage_error {disk : Disk} {directory : String} {content : ByteArray}
    {refusal : StorageError} (h : disk.stage directory content = .error refusal) :
    FileSystem.stage (m := DiskM) directory content disk = (.error refusal, disk) := by
  simp only [FileSystem.stage, h]

namespace Disk

variable {disk other : Disk} {place : Place} {directory name : String}

/-! ### Names of new files -/

theorem mem_lastNames :
    name ∈ disk.lastNames ↔
      ∃ place, place.getLast? = some name ∧ disk.entryAt place ≠ none := by
  have hentryAt (place : Place) (hlast : place.getLast? = some name) :
      disk.entryAt place ≠ none ↔ ∃ entry, (place, entry) ∈ disk.entries := by
    have hplace : place.isEmpty = false := by
      cases place with
      | nil => cases hlast
      | cons first rest => rfl
    rw [entryAt, hplace, if_neg Bool.false_ne_true, ne_eq, List.lookup_eq_none_iff]
    simp
  rw [lastNames, List.mem_filterMap]
  constructor
  · rintro ⟨⟨place, entry⟩, hmem, hlast⟩
    exact ⟨place, hlast, (hentryAt place hlast).mpr ⟨entry, hmem⟩⟩
  · rintro ⟨place, hlast, hentry⟩
    obtain ⟨entry, hmem⟩ := (hentryAt place hlast).mp hentry
    exact ⟨(place, entry), hmem, hlast⟩

/-- There are more temporary names than entries of a list. -/
theorem exists_temporaryName_not_mem (names : List String) :
    ∃ n ≤ names.length, temporaryName n ∉ names := by
  by_contra hall
  -- Otherwise one name more than there are would be among them.
  have hsub : ((List.range (names.length + 1)).map temporaryName).Subperm names := by
    refine List.Nodup.subperm ?_ fun name hname => ?_
    · exact List.Nodup.map (fun _ _ h => temporaryName_inj h) List.nodup_range
    · obtain ⟨n, hn, rfl⟩ := List.mem_map.mp hname
      have hle : n ≤ names.length := Nat.le_of_lt_succ (List.mem_range.mp hn)
      by_contra hmem
      exact hall ⟨n, hle, hmem⟩
  have hlength := hsub.length_le
  rw [List.length_map, List.length_range] at hlength
  omega

/-- The name of a new file is the first temporary name that is free. -/
theorem freshName_spec (names : List String) :
    ∃ n, freshName names = temporaryName n ∧ temporaryName n ∉ names ∧
      ∀ m < n, temporaryName m ∈ names := by
  rw [freshName, List.find?_map]
  cases hfind : (List.range names.length).find? ((!names.contains ·) ∘ temporaryName) with
  | some n =>
    obtain ⟨hn, -, hbefore⟩ := List.find?_range_eq_some.mp hfind
    exact ⟨n, rfl, by simpa using hn, fun m hm => by simpa using hbefore m hm⟩
  | none =>
    rw [List.find?_eq_none] at hfind
    -- None of the first ones is free, so the next one is.
    have hbefore (m : Nat) (hm : m < names.length) : temporaryName m ∈ names := by
      simpa using hfind m (List.mem_range.mpr hm)
    obtain ⟨n, hle, hn⟩ := exists_temporaryName_not_mem names
    obtain rfl : n = names.length := by
      by_contra hne
      exact hn (hbefore n (by omega))
    exact ⟨names.length, rfl, hn, hbefore⟩

theorem freshName_not_mem (names : List String) : freshName names ∉ names := by
  obtain ⟨n, hname, hn, -⟩ := freshName_spec names
  rwa [hname]

/-- Only the temporary names among others decide which is free. -/
theorem freshName_congr {names others : List String}
    (h : ∀ n, temporaryName n ∈ others ↔ temporaryName n ∈ names) :
    freshName others = freshName names := by
  obtain ⟨n, hname, hn, hbefore⟩ := freshName_spec names
  obtain ⟨m, hother, hm, hbefore'⟩ := freshName_spec others
  rw [hname, hother]
  congr 1
  -- The first of each list that is free is free in the other, too.
  rcases Nat.lt_trichotomy m n with hlt | heq | hlt
  · exact absurd ((h m).mpr (hbefore m hlt)) hm
  · exact heq
  · exact absurd ((h n).mp (hbefore' n hlt)) hn

theorem plain_freshName (names : List String) : Path.Plain (freshName names) := by
  obtain ⟨n, hname, -⟩ := freshName_spec names
  rw [hname]
  exact plain_temporaryName n

theorem entryAt_of_freshName (h : place.getLast? = some (freshName disk.lastNames)) :
    disk.entryAt place = none := by
  by_contra hentry
  exact freshName_not_mem _ (mem_lastNames.mpr ⟨place, h, hentry⟩)

/-! ### Seats -/

/-- Where a file of some name can be put in the directory that a path leads to. -/
def seat (disk : Disk) (directory name : String) : Option Place :=
  (disk.spot directory name).filter (!disk.holdsDirectory ·)

theorem seat_eq_some :
    disk.seat directory name = some place ↔
      disk.spot directory name = some place ∧ disk.holdsDirectory place = false := by
  rw [seat, Option.filter_eq_some_iff, Bool.not_eq_true']

theorem Alike.seat (h : Alike disk other) (directory name : String) :
    other.seat directory name = disk.seat directory name := by
  rw [Disk.seat, Disk.seat, h.spot, funext h.holdsDirectory]

theorem getLast?_of_seat (h : disk.seat directory name = some place) :
    place.getLast? = some name :=
  getLast?_of_spot (seat_eq_some.mp h).1

theorem exists_home_of_seat (h : disk.seat directory name = some place) :
    ∃ root, disk.home directory = some root ∧ place = root ++ [name] := by
  have hspot := (seat_eq_some.mp h).1
  rw [spot] at hspot
  split_ifs at hspot
  obtain ⟨root, hroot, hplace⟩ := Option.map_eq_some_iff.mp hspot
  exact ⟨root, hroot, hplace.symm⟩

theorem ne_nil_of_seat (h : disk.seat directory name = some place) : place ≠ [] :=
  ne_nil_of_spot (seat_eq_some.mp h).1

/-- Files of different names have different seats. -/
theorem ne_of_seat {directory' name' : String} {place' : Place}
    (h : disk.seat directory name = some place)
    (h' : other.seat directory' name' = some place') (hne : name ≠ name') : place ≠ place' := by
  rintro rfl
  exact hne (Option.some.inj ((getLast?_of_seat h).symm.trans (getLast?_of_seat h')))

theorem alike_put_seat (h : disk.seat directory name = some place) (content : ByteArray) :
    Alike disk (disk.put place (.file content)) :=
  alike_put_file (ne_nil_of_seat h) (seat_eq_some.mp h).2 content

theorem alike_erase_seat (h : disk.seat directory name = some place) :
    Alike disk (disk.erase place) :=
  alike_erase (ne_nil_of_seat h) (seat_eq_some.mp h).2

/-! ### Operations on files -/

section Operations

variable (hn : Path.Plain name)

include hn

theorem find_of_seat (h : disk.seat directory name = some place) :
    disk.find (Path.join directory name) = .ok (disk.destination place) :=
  find_join hn (seat_eq_some.mp h).1

/-- Where there is no seat, there is a directory or nothing is found. -/
theorem find_of_no_seat (h : disk.seat directory name = none) :
    (∃ refusal, disk.find (Path.join directory name) = .error refusal) ∨
      ∃ place, disk.find (Path.join directory name) = .ok (.entry place .directory) := by
  cases hspot : disk.spot directory name with
  | none => exact .inl (find_join_none hn hspot)
  | some place =>
    have hplace : disk.holdsDirectory place = true := by
      by_contra hfree
      rw [seat_eq_some.mpr ⟨hspot, Bool.eq_false_iff.mpr hfree⟩] at h
      cases h
    refine .inr ⟨place, ?_⟩
    rw [find_join hn hspot, destination, holdsDirectory_iff.mp hplace]

theorem findEntry_of_seat (h : disk.seat directory name = some place) :
    disk.findEntry (Path.join directory name)
      = match disk.entryAt place with
        | some entry => .ok (place, entry)
        | none => .error .notFound :=
  findEntry_join hn (seat_eq_some.mp h).1

theorem findEntry_of_file (h : disk.seat directory name = some place) {content : ByteArray}
    (hfile : disk.entryAt place = some (.file content)) :
    disk.findEntry (Path.join directory name) = .ok (place, .file content) := by
  rw [findEntry_of_seat hn h, hfile]

theorem read_of_file (h : disk.seat directory name = some place) {content : ByteArray}
    (hfile : disk.entryAt place = some (.file content)) :
    FileSystem.read (m := DiskM) (Path.join directory name) disk = (.ok content, disk) := by
  show (disk.read (Path.join directory name), disk) = _
  rw [read, findEntry_of_file hn h hfile]
  rfl

theorem read_of_free (h : disk.seat directory name = some place)
    (hfree : disk.entryAt place = none) :
    FileSystem.read (m := DiskM) (Path.join directory name) disk = (.error .notFound, disk) := by
  show (disk.read (Path.join directory name), disk) = _
  rw [read, findEntry_of_seat hn h, hfree]
  rfl

theorem read_of_no_seat (h : disk.seat directory name = none) :
    ∃ refusal, FileSystem.read (m := DiskM) (Path.join directory name) disk
      = (.error refusal, disk) := by
  have hread : ∃ refusal, disk.read (Path.join directory name) = .error refusal := by
    rw [read, findEntry]
    rcases find_of_no_seat hn h with ⟨refusal, hfind⟩ | ⟨place, hfind⟩
    · exact ⟨refusal, by rw [hfind]; rfl⟩
    · exact ⟨.isDirectory, by rw [hfind]; rfl⟩
  obtain ⟨refusal, hrefusal⟩ := hread
  exact ⟨refusal, congrArg (Prod.mk · disk) hrefusal⟩

theorem write_eq_put (h : disk.seat directory name = some place) (content : ByteArray) :
    disk.write (Path.join directory name) content = .ok (disk.put place (.file content)) :=
  write_join hn (seat_eq_some.mp h).1 (seat_eq_some.mp h).2 content

theorem write_eq_error (h : disk.seat directory name = none) (content : ByteArray) :
    ∃ refusal, disk.write (Path.join directory name) content = .error refusal := by
  rw [write]
  rcases find_of_no_seat hn h with ⟨refusal, hfind⟩ | ⟨place, hfind⟩
  · exact ⟨refusal, by rw [hfind]; rfl⟩
  · exact ⟨.isDirectory, by rw [hfind]; rfl⟩

theorem write_of_seat (h : disk.seat directory name = some place) (content : ByteArray) :
    FileSystem.write (m := DiskM) (Path.join directory name) content disk
      = (.ok (), disk.put place (.file content)) :=
  DiskM.change_ok (write_eq_put hn h content)

theorem remove_of_file (h : disk.seat directory name = some place) {content : ByteArray}
    (hfile : disk.entryAt place = some (.file content)) :
    FileSystem.remove (m := DiskM) (Path.join directory name) disk
      = (.ok (), disk.erase place) := by
  have hremove : disk.remove (Path.join directory name) = .ok (disk.erase place) := by
    rw [remove, findEntry_of_file hn h hfile]
    rfl
  exact DiskM.change_ok hremove

theorem rename_eq_write (h : disk.seat directory name = some place) {content : ByteArray}
    (hfile : disk.entryAt place = some (.file content)) (target : String) :
    disk.rename (Path.join directory name) target = (disk.erase place).write target content := by
  rw [rename, findEntry_of_file hn h hfile]
  rfl

variable {directory' name' : String} {target : Place} (hn' : Path.Plain name')

include hn'

theorem rename_of_seat (h : disk.seat directory name = some place) {content : ByteArray}
    (hfile : disk.entryAt place = some (.file content))
    (h' : disk.seat directory' name' = some target) :
    FileSystem.rename (m := DiskM) (Path.join directory name) (Path.join directory' name') disk
      = (.ok (), (disk.erase place).put target (.file content)) := by
  have htarget : (disk.erase place).seat directory' name' = some target := by
    rw [(alike_erase_seat h).seat, h']
  exact DiskM.change_ok ((rename_eq_write hn h hfile _).trans (write_eq_put hn' htarget content))

theorem rename_of_no_seat (h : disk.seat directory name = some place) {content : ByteArray}
    (hfile : disk.entryAt place = some (.file content))
    (h' : disk.seat directory' name' = none) :
    ∃ refusal, FileSystem.rename (m := DiskM) (Path.join directory name)
      (Path.join directory' name') disk = (.error refusal, disk) := by
  have htarget : (disk.erase place).seat directory' name' = none := by
    rw [(alike_erase_seat h).seat, h']
  obtain ⟨refusal, hrefusal⟩ := write_eq_error hn' htarget content
  exact ⟨refusal, DiskM.change_error ((rename_eq_write hn h hfile _).trans hrefusal)⟩

end Operations

/-! ### New files -/

/-- The path from the root to a directory. -/
def absolute (disk : Disk) (directory : String) : String :=
  Path.join disk.start.path directory

theorem stage_of_seat (content : ByteArray)
    (h : disk.seat (disk.absolute directory) (freshName disk.lastNames) = some place) :
    FileSystem.stage (m := DiskM) directory content disk
      = (.ok (Path.join (disk.absolute directory) (freshName disk.lastNames)),
        disk.put place (.file content)) := by
  have hfree := entryAt_of_freshName (getLast?_of_seat h)
  have hstage : disk.stage directory content
      = .ok (disk.stagingPath directory, disk.put place (.file content)) := by
    have hfind := find_of_seat (plain_freshName _) h
    rw [destination, hfree] at hfind
    rw [stage, stagingPath, ← absolute, hfind]
    rfl
  exact DiskM.stage_ok hstage

theorem stage_of_no_seat (content : ByteArray)
    (h : disk.seat (disk.absolute directory) (freshName disk.lastNames) = none) :
    ∃ refusal, FileSystem.stage (m := DiskM) directory content disk = (.error refusal, disk) := by
  have hstage : ∃ refusal, disk.stage directory content = .error refusal := by
    rw [stage, stagingPath, ← absolute]
    rcases find_of_no_seat (plain_freshName _) h with ⟨refusal, hfind⟩ | ⟨place, hfind⟩
    · exact ⟨refusal, by rw [hfind]; rfl⟩
    · exact ⟨.alreadyExists, by rw [hfind]; rfl⟩
  obtain ⟨refusal, hrefusal⟩ := hstage
  exact ⟨refusal, DiskM.stage_error hrefusal⟩

end Disk

end Pagewright
