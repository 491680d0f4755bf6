/-
What becomes of a disk on which a directory is made with those above it.

Only directories are added, and only such as the path leads through
(`Disk.Grows`).  Making them is settled once it has been tried:

* `makeDirectories_of_stands` — a directory that is there is left as it is;
* `makeDirectories_spec` — otherwise it is there afterwards, or the attempt
  fails, and then it fails again, without any further change, on the disk that
  it has left behind.
-/
import Mathlib.Data.List.Range
import Pagewright.Proofs.Staging
import Pagewright.Storage.Directories

namespace Pagewright

namespace Disk

variable {disk other third : Disk} {path : String} {place reached : Place} {names : List String}

/-! ### Growing disks -/

/-- A disk with more directories, each at the end of one of some paths. -/
structure Grows (paths : List String) (disk other : Disk) : Prop where
  start : other.start = disk.start
  entryAt : ∀ place, other.entryAt place = disk.entryAt place ∨
    disk.entryAt place = none ∧ other.entryAt place = some .directory ∧
      ∃ path ∈ paths, other.home path = some place

variable {paths : List String}

theorem Grows.refl (paths : List String) (disk : Disk) : Grows paths disk disk :=
  ⟨rfl, fun _ => .inl rfl⟩

theorem Grows.holdsDirectory (h : Grows paths disk other)
    (hplace : disk.holdsDirectory place = true) : other.holdsDirectory place = true := by
  rw [holdsDirectory_iff] at hplace ⊢
  rcases h.entryAt place with hsame | ⟨hnone, -, -⟩
  · rw [hsame, hplace]
  · rw [hnone] at hplace
    cases hplace

theorem walk_mono
    (h : ∀ place, disk.holdsDirectory place = true → other.holdsDirectory place = true) :
    ∀ {names : List String} {place : Place}, disk.walk place names = some reached →
      other.walk place names = some reached
  | [], _, hwalk => hwalk
  | name :: names, place, hwalk => by
    rw [walk_cons] at hwalk ⊢
    obtain ⟨inner, hinner, hwalk⟩ := Option.bind_eq_some_iff.mp hwalk
    refine Option.bind_eq_some_iff.mpr ⟨inner, ?_, walk_mono h hwalk⟩
    rw [enter] at hinner ⊢
    split_ifs at hinner with hhere hup hfits
    · rwa [if_pos hhere]
    · rwa [if_neg hhere, if_pos hup]
    · rwa [if_neg hhere, if_neg hup, if_pos ⟨hfits.1, h _ hfits.2⟩]

theorem Grows.home (h : Grows paths disk other) (hhome : disk.home path = some place) :
    other.home path = some place := by
  rw [Disk.home, origin, h.start]
  exact walk_mono (fun _ => h.holdsDirectory) hhome

theorem Grows.trans (h : Grows paths disk other) (h' : Grows paths other third) :
    Grows paths disk third := by
  refine ⟨h'.start.trans h.start, fun place => ?_⟩
  rcases h'.entryAt place with hsame' | ⟨hnone', hdirectory', hpath'⟩
  · rcases h.entryAt place with hsame | ⟨hnone, hdirectory, path, hpath, hhome⟩
    · exact .inl (hsame'.trans hsame)
    · exact .inr ⟨hnone, hsame'.trans hdirectory, path, hpath, h'.home hhome⟩
  · rcases h.entryAt place with hsame | ⟨-, hdirectory, -⟩
    · exact .inr ⟨hsame ▸ hnone', hdirectory', hpath'⟩
    · rw [hdirectory] at hnone'
      cases hnone'

theorem Grows.mono {paths' : List String} (hsub : ∀ path ∈ paths, path ∈ paths')
    (h : Grows paths disk other) : Grows paths' disk other :=
  ⟨h.start, fun place => (h.entryAt place).imp_right
    fun ⟨hnone, hdirectory, path, hpath, hhome⟩ =>
      ⟨hnone, hdirectory, path, hsub path hpath, hhome⟩⟩

theorem Grows.same (h : Grows paths disk other) (hsame : Same other third) :
    Grows paths disk third := by
  refine ⟨hsame.start.trans h.start, fun place => ?_⟩
  rw [hsame.entryAt]
  refine (h.entryAt place).imp_right fun ⟨hnone, hdirectory, path, hpath, hhome⟩ => ?_
  exact ⟨hnone, hdirectory, path, hpath, (hsame.alike.home path).trans hhome⟩

/-! ### Where a path leads -/

/-- Whether there is a directory at the end of a path. -/
def Stands (disk : Disk) (path : String) : Prop :=
  admits path = true ∧ (disk.home path).isSome

/-- Whether there is no directory at the end of a path, and none can be made. -/
def Refuses (disk : Disk) (path : String) : Prop :=
  (∃ refusal, disk.find path = .error refusal) ∨
    ∃ place content, disk.find path = .ok (.entry place (.file content))

theorem admits_of_find {destination : Destination} (h : disk.find path = .ok destination) :
    admits path = true := by
  by_contra hpath
  have hnot : ∃ refusal, disk.find path = .error refusal ∧ (path ≠ "" → refusal ≠ .notFound) :=
    find_of_not_admits (Bool.eq_false_iff.mpr hpath)
  obtain ⟨refusal, hrefusal, -⟩ := hnot
  rw [hrefusal] at h
  cases h

theorem ne_empty_of_admits (h : admits path = true) : ¬path.isEmpty = true := by
  intro hempty
  rw [admits, hempty] at h
  cases h

theorem stands_iff :
    disk.Stands path ↔ ∃ place, disk.find path = .ok (.entry place .directory) := by
  constructor
  · rintro ⟨hpath, hhome⟩
    obtain ⟨place, hplace⟩ := Option.isSome_iff_exists.mp hhome
    exact ⟨place, find_of_home hpath hplace⟩
  · rintro ⟨place, hfind⟩
    have hpath := admits_of_find hfind
    rw [find_of_admits hpath] at hfind
    exact ⟨hpath, Option.isSome_iff_exists.mpr ⟨place, walk_of_follow hfind⟩⟩

theorem Stands.not_refuses (h : disk.Stands path) : ¬disk.Refuses path := by
  obtain ⟨place, hfind⟩ := stands_iff.mp h
  rintro (⟨refusal, hrefusal⟩ | ⟨place', content, hfile⟩)
  · rw [hrefusal] at hfind
    cases hfind
  · rw [hfile] at hfind
    cases hfind

/-- A path leads to a directory, to a name that is free, or to neither. -/
theorem stands_or_free_or_refuses (disk : Disk) (path : String) :
    disk.Stands path ∨ (∃ place, disk.find path = .ok (.free place)) ∨ disk.Refuses path := by
  cases hfind : disk.find path with
  | error refusal => exact .inr (.inr (.inl ⟨refusal, hfind⟩))
  | ok destination =>
    cases destination with
    | free place => exact .inr (.inl ⟨place, rfl⟩)
    | entry place entry =>
      cases entry with
      | directory => exact .inl (stands_iff.mpr ⟨place, hfind⟩)
      | file content => exact .inr (.inr (.inr ⟨place, content, hfind⟩))

theorem Grows.stands (h : Grows paths disk other) (hstands : disk.Stands path) :
    other.Stands path := by
  obtain ⟨hpath, hhome⟩ := hstands
  obtain ⟨place, hplace⟩ := Option.isSome_iff_exists.mp hhome
  exact ⟨hpath, Option.isSome_iff_exists.mpr ⟨place, h.home hplace⟩⟩

theorem Alike.stands (h : Alike disk other) (hstands : disk.Stands path) : other.Stands path :=
  ⟨hstands.1, (h.home path).symm ▸ hstands.2⟩

/-! ### One directory -/

/-- The last of some names is free in the directory that those before it lead to. -/
theorem exists_of_free (h : disk.follow place names = .ok (.free reached)) :
    ∃ before name inner, names = before ++ [name] ∧ reached = inner ++ [name] ∧
      disk.walk place before = some inner ∧ name ≠ "." ∧ name ≠ ".." ∧
      name.utf8ByteSize ≤ nameLimit ∧ disk.entryAt reached = none := by
  rcases follow_cases disk place names with ⟨other, hwalk⟩ | ⟨refusal, hfollow⟩ |
    ⟨before, name, inner, hsplit, hbefore, -, hhere, hup, hfits, hfollow⟩
  · rw [follow_of_walk hwalk] at h
    cases h
  · rw [hfollow] at h
    cases h
  · rw [h, destination] at hfollow
    split at hfollow
    · cases hfollow
    · rename_i hnone
      obtain rfl : reached = inner ++ [name] := by
        injection hfollow with hfollow
        injection hfollow
      exact ⟨before, name, inner, hsplit, rfl, hbefore, hhere, hup, hfits, hnone⟩

/-- A name that is free becomes the end of the path once there is a directory. -/
theorem walk_put_of_free (h : disk.follow place names = .ok (.free reached)) :
    disk.entryAt reached = none ∧ reached ≠ [] ∧
      (disk.put reached .directory).walk place names = some reached := by
  obtain ⟨before, name, inner, rfl, rfl, hbefore, hhere, hup, hfits, hnone⟩ := exists_of_free h
  have hne : inner ++ [name] ≠ [] := List.append_ne_nil_of_right_ne_nil _ (List.cons_ne_nil _ _)
  refine ⟨hnone, hne, ?_⟩
  -- The way to the new directory is still there, and its last step leads into it.
  have hkeeps (asked : Place) (hasked : disk.holdsDirectory asked = true) :
      (disk.put (inner ++ [name]) .directory).holdsDirectory asked = true := by
    rw [holdsDirectory_iff, entryAt_put hne]
    split_ifs
    · rfl
    · exact holdsDirectory_iff.mp hasked
  have hthere : (disk.put (inner ++ [name]) .directory).holdsDirectory (inner ++ [name])
      = true := by
    rw [holdsDirectory_iff, entryAt_put hne, if_pos rfl]
  rw [walk_append, walk_mono hkeeps hbefore, Option.bind_some, walk_cons, enter, if_neg hhere,
    if_neg hup, if_pos ⟨hfits, hthere⟩]
  rfl

theorem put_of_free (h : disk.find path = .ok (.free place)) :
    Grows [path] disk (disk.put place .directory) ∧ (disk.put place .directory).Stands path := by
  have hpath := admits_of_find h
  rw [find_of_admits hpath] at h
  obtain ⟨hnone, hne, hhome⟩ := walk_put_of_free h
  refine ⟨⟨rfl, fun asked => ?_⟩, hpath, Option.isSome_iff_exists.mpr ⟨place, hhome⟩⟩
  rw [entryAt_put hne]
  split_ifs with hasked
  · exact .inr ⟨hasked ▸ hnone, rfl, path, List.mem_singleton_self path, hasked ▸ hhome⟩
  · exact .inl rfl

end Disk

/-! ### Making directories one by one -/

section Steps

variable {disk : Disk} {path : String} {place : Place}

theorem makeDirectory_of_free (h : disk.find path = .ok (.free place)) :
    FileSystem.makeDirectory (m := DiskM) path disk = (.ok (), disk.put place .directory) := by
  have hmake : disk.makeDirectory path = .ok (disk.put place .directory) := by
    rw [Disk.makeDirectory, h]
    rfl
  exact DiskM.change_ok hmake

theorem makeDirectory_of_entry {entry : DiskEntry} (h : disk.find path = .ok (.entry place entry)) :
    FileSystem.makeDirectory (m := DiskM) path disk = (.error .alreadyExists, disk) := by
  have hmake : disk.makeDirectory path = .error .alreadyExists := by
    rw [Disk.makeDirectory, h]
    rfl
  exact DiskM.change_error hmake

theorem makeDirectory_of_error {refusal : StorageError} (h : disk.find path = .error refusal) :
    FileSystem.makeDirectory (m := DiskM) path disk = (.error refusal, disk) := by
  have hmake : disk.makeDirectory path = .error refusal := by
    rw [Disk.makeDirectory, h]
    rfl
  exact DiskM.change_error hmake

theorem isDirectory_of_stands (h : disk.Stands path) :
    FileSystem.isDirectory (m := DiskM) path disk = (true, disk) := by
  obtain ⟨place, hfind⟩ := Disk.stands_iff.mp h
  show ((disk.findEntry path).toOption.map (·.2.kind) == some .directory, disk) = _
  rw [Disk.findEntry, hfind]
  rfl

theorem isDirectory_of_refuses (h : disk.Refuses path) :
    FileSystem.isDirectory (m := DiskM) path disk = (false, disk) := by
  -- What refuses is not looked up as a directory, be it a file or nothing at all.
  have hentry : ∀ place, disk.findEntry path ≠ .ok (place, .directory) := by
    intro place hentry
    rw [Disk.findEntry] at hentry
    rcases h with ⟨refusal, hfind⟩ | ⟨place', content, hfind⟩
    · rw [hfind] at hentry
      cases hentry
    · rw [hfind] at hentry
      change (if Path.endsInSlash path then _ else _) = _ at hentry
      split_ifs at hentry
      cases hentry
  show ((disk.findEntry path).toOption.map (·.2.kind) == some .directory, disk) = _
  cases hfound : disk.findEntry path with
  | error refusal => rfl
  | ok found =>
    obtain ⟨place, entry⟩ := found
    cases entry with
    | file content => rfl
    | directory => exact absurd hfound (hentry place)

end Steps

open Disk

variable {disk final : Disk} {path : String} {paths inside : List String}

theorem makeEach_of_free {place : Place} (h : disk.find path = .ok (.free place))
    (paths : List String) :
    makeEach (m := DiskM) (path :: paths) disk
      = makeEach (m := DiskM) paths (disk.put place .directory) := by
  rw [makeEach, DiskM.bind_apply, makeDirectory_of_free h]

theorem makeEach_of_stands (h : disk.Stands path) (paths : List String) :
    makeEach (m := DiskM) (path :: paths) disk = makeEach (m := DiskM) paths disk := by
  obtain ⟨place, hfind⟩ := stands_iff.mp h
  rw [makeEach, DiskM.bind_apply, makeDirectory_of_entry hfind]
  show ((FileSystem.isDirectory _ : DiskM _) >>= _) disk = _
  rw [DiskM.bind_apply, isDirectory_of_stands h]
  rfl

theorem makeEach_of_refuses (h : disk.Refuses path) (paths : List String) :
    ∃ refusal, makeEach (m := DiskM) (path :: paths) disk = (.error refusal, disk) := by
  have hmake : ∃ refusal, FileSystem.makeDirectory (m := DiskM) path disk
      = (.error refusal, disk) := by
    rcases h with ⟨refusal, hfind⟩ | ⟨place, content, hfind⟩
    · exact ⟨refusal, makeDirectory_of_error hfind⟩
    · exact ⟨.alreadyExists, makeDirectory_of_entry hfind⟩
  obtain ⟨refusal, hrefusal⟩ := hmake
  refine ⟨refusal, ?_⟩
  rw [makeEach, DiskM.bind_apply, hrefusal]
  show ((FileSystem.isDirectory _ : DiskM _) >>= _) disk = _
  rw [DiskM.bind_apply, isDirectory_of_refuses h, Bool.and_false]
  rfl

/-- How far directories have been made one by one. -/
inductive EachMade (paths : List String) (final : Disk) : Except StorageError Unit → Prop
  | all : (∀ path ∈ paths, final.Stands path) → EachMade paths final (.ok ())
  | upTo {before after : List String} {path : String} {refusal : StorageError} :
    paths = before ++ path :: after → (∀ asked ∈ before, final.Stands asked) →
    final.Refuses path → EachMade paths final (.error refusal)

theorem EachMade.cons {result : Except StorageError Unit} (h : EachMade paths final result)
    (hstands : final.Stands path) : EachMade (path :: paths) final result := by
  have hcons {asked : String} {others : List String} (hasked : asked ∈ path :: others)
      (hothers : ∀ asked ∈ others, final.Stands asked) : final.Stands asked := by
    rcases List.mem_cons.mp hasked with rfl | hasked
    · exact hstands
    · exact hothers asked hasked
  cases h with
  | all hall => exact .all fun asked hasked => hcons hasked hall
  | @upTo before after refused refusal hsplit hbefore hrefused =>
    have hsplit' : path :: paths = (path :: before) ++ refused :: after := by
      rw [hsplit, List.cons_append]
    exact .upTo hsplit' (fun asked hasked => hcons hasked hbefore) hrefused

/-- Directories made one by one are all there, or one of them is refused after
those before it. -/
theorem makeEach_spec : ∀ (paths : List String) (disk : Disk),
    Grows paths disk (makeEach (m := DiskM) paths disk).2 ∧
      EachMade paths (makeEach (m := DiskM) paths disk).2 (makeEach (m := DiskM) paths disk).1
  | [], disk => ⟨Grows.refl [] disk, .all fun _ h => absurd h List.not_mem_nil⟩
  | path :: paths, disk => by
    have hrest {asked : String} (h : asked ∈ paths) : asked ∈ path :: paths :=
      List.mem_cons_of_mem path h
    rcases stands_or_free_or_refuses disk path with hstands | ⟨place, hfree⟩ | hrefuses
    · obtain ⟨hgrows, hmade⟩ := makeEach_spec paths disk
      rw [makeEach_of_stands hstands]
      exact ⟨hgrows.mono fun _ => hrest, hmade.cons (hgrows.stands hstands)⟩
    · obtain ⟨hput, hstands⟩ := put_of_free hfree
      obtain ⟨hgrows, hmade⟩ := makeEach_spec paths (disk.put place .directory)
      rw [makeEach_of_free hfree]
      have hfirst : Grows (path :: paths) disk (disk.put place .directory) :=
        hput.mono fun asked hasked => List.mem_singleton.mp hasked ▸ List.mem_cons_self
      exact ⟨hfirst.trans (hgrows.mono fun _ => hrest), hmade.cons (hgrows.stands hstands)⟩
    · obtain ⟨refusal, hmake⟩ := makeEach_of_refuses hrefuses paths
      rw [hmake]
      have hsplit : path :: paths = [] ++ path :: paths := rfl
      exact ⟨Grows.refl _ disk, .upTo hsplit (fun _ h => absurd h List.not_mem_nil) hrefuses⟩

/-! ### Making the outermost directory -/

theorem makeOutermost_of_empty (inside outer : List String) :
    makeOutermost (m := DiskM) inside ("" :: outer) disk = (.ok inside, disk) := by
  rw [makeOutermost]
  rfl

theorem makeOutermost_of_free {place : Place} (h : disk.find path = .ok (.free place))
    (inside outer : List String) :
    makeOutermost (m := DiskM) inside (path :: outer) disk
      = (.ok inside, disk.put place .directory) := by
  have hpath := admits_of_find h
  rw [makeOutermost, if_neg (ne_empty_of_admits hpath), DiskM.bind_apply, makeDirectory_of_free h]
  rfl

theorem makeOutermost_of_stands (h : disk.Stands path) (inside outer : List String) :
    makeOutermost (m := DiskM) inside (path :: outer) disk = (.ok inside, disk) := by
  obtain ⟨place, hfind⟩ := stands_iff.mp h
  rw [makeOutermost, if_neg (ne_empty_of_admits h.1), DiskM.bind_apply,
    makeDirectory_of_entry hfind]
  show ((FileSystem.isDirectory _ : DiskM _) >>= _) disk = _
  rw [DiskM.bind_apply, isDirectory_of_stands h]
  rfl

theorem makeOutermost_of_notFound (h : disk.find path = .error .notFound) (hpath : path ≠ "")
    (inside outer : List String) :
    makeOutermost (m := DiskM) inside (path :: outer) disk
      = makeOutermost (m := DiskM) (path :: inside) outer disk := by
  have hempty : ¬path.isEmpty = true := fun hempty => hpath (String.isEmpty_iff.mp hempty)
  rw [makeOutermost, if_neg hempty, DiskM.bind_apply, makeDirectory_of_error h]

/-- A path that refuses ends the search, unless it is only missing. -/
theorem makeOutermost_of_refuses (h : disk.Refuses path) (hpath : path ≠ "")
    (inside outer : List String) :
    (∃ refusal, makeOutermost (m := DiskM) inside (path :: outer) disk = (.error refusal, disk)) ∨
      admits path = true ∧ makeOutermost (m := DiskM) inside (path :: outer) disk
        = makeOutermost (m := DiskM) (path :: inside) outer disk := by
  have hempty : ¬path.isEmpty = true := fun hempty => hpath (String.isEmpty_iff.mp hempty)
  have hrefused {refusal : StorageError} (hne : refusal ≠ .notFound)
      (hmake : FileSystem.makeDirectory (m := DiskM) path disk = (.error refusal, disk)) :
      makeOutermost (m := DiskM) inside (path :: outer) disk = (.error refusal, disk) := by
    -- Any refusal but that of something missing ends the search.
    rw [makeOutermost, if_neg hempty, DiskM.bind_apply, hmake]
    cases refusal with
    | notFound => exact absurd rfl hne
    | _ =>
      show ((FileSystem.isDirectory _ : DiskM _) >>= _) disk = _
      rw [DiskM.bind_apply, isDirectory_of_refuses h, Bool.and_false]
      rfl
  rcases h with ⟨refusal, hfind⟩ | ⟨place, content, hfind⟩
  · have hmake := makeDirectory_of_error hfind
    by_cases hmissing : refusal = .notFound
    · refine .inr ⟨?_, ?_⟩
      · by_contra hadmits
        have hnot : ∃ refusal, disk.find path = .error refusal ∧
            (path ≠ "" → refusal ≠ .notFound) :=
          find_of_not_admits (Bool.eq_false_iff.mpr hadmits)
        obtain ⟨other, hother, hne⟩ := hnot
        rw [hfind] at hother
        exact hne hpath ((Except.error.inj hother).symm.trans hmissing)
      · exact makeOutermost_of_notFound (hmissing ▸ hfind) hpath inside outer
    · exact .inl ⟨refusal, hrefused hmissing hmake⟩
  · exact .inl ⟨.alreadyExists, hrefused (by decide) (makeDirectory_of_entry hfind)⟩

/-- Where the search for the outermost directory ends: at the empty path, at
a directory that is there, or at the end. -/
def EndsAt (disk : Disk) : List String → Prop
  | [] => True
  | path :: _ => path = "" ∨ disk.Stands path

theorem EndsAt.mono (hgrows : Grows paths disk final) {rest : List String}
    (h : EndsAt disk rest) : EndsAt final rest := by
  cases rest with
  | nil => exact h
  | cons path rest => exact h.imp_right hgrows.stands

/-- The search fails at once, or goes past some missing directories. -/
theorem makeOutermost_spec (disk : Disk) : ∀ outer inside : List String,
    (∃ refusal, makeOutermost (m := DiskM) inside outer disk = (.error refusal, disk)) ∨
      ∃ visited rest final, outer = visited ++ rest ∧
        makeOutermost (m := DiskM) inside outer disk = (.ok (visited.reverse ++ inside), final) ∧
        Grows outer disk final ∧ (∀ path ∈ visited, admits path = true) ∧ EndsAt final rest
  | [], inside =>
    .inr ⟨[], [], disk, rfl, rfl, Grows.refl _ disk, fun _ h => absurd h List.not_mem_nil, trivial⟩
  | path :: outer, inside => by
    by_cases hpath : path = ""
    · subst hpath
      exact .inr ⟨[], _, disk, rfl, makeOutermost_of_empty inside outer, Grows.refl _ disk,
        fun _ h => absurd h List.not_mem_nil, .inl rfl⟩
    rcases stands_or_free_or_refuses disk path with hstands | ⟨place, hfree⟩ | hrefuses
    · exact .inr ⟨[], _, disk, rfl, makeOutermost_of_stands hstands inside outer,
        Grows.refl _ disk, fun _ h => absurd h List.not_mem_nil, .inr hstands⟩
    · obtain ⟨hput, hstands⟩ := put_of_free hfree
      have hgrows : Grows (path :: outer) disk (disk.put place .directory) :=
        hput.mono fun asked hasked => List.mem_singleton.mp hasked ▸ List.mem_cons_self
      exact .inr ⟨[], _, _, rfl, makeOutermost_of_free hfree inside outer, hgrows,
        fun _ h => absurd h List.not_mem_nil, .inr hstands⟩
    · rcases makeOutermost_of_refuses hrefuses hpath inside outer with hrefused | ⟨hadmits, heq⟩
      · exact .inl hrefused
      · rw [heq]
        rcases makeOutermost_spec disk outer (path :: inside) with hrefused |
          ⟨visited, rest, final, hsplit, hmake, hgrows, hvisited, hends⟩
        · exact .inl hrefused
        · refine .inr ⟨path :: visited, rest, final, by rw [hsplit, List.cons_append], ?_,
            hgrows.mono fun asked => List.mem_cons_of_mem path, fun asked hasked => ?_, hends⟩
          · rw [hmake, List.reverse_cons, List.append_assoc, List.singleton_append]
          · rcases List.mem_cons.mp hasked with rfl | hasked
            · exact hadmits
            · exact hvisited asked hasked

/-- Where every path up to one refuses and the search would end behind it,
the search fails or goes on from that path. -/
theorem makeOutermost_of_all_refuse {rest : List String} (hends : EndsAt disk rest) :
    ∀ (before inside : List String),
      (∀ asked ∈ before ++ [path], disk.Refuses asked ∧ asked ≠ "") →
      (∃ refusal,
        makeOutermost (m := DiskM) inside (before ++ path :: rest) disk = (.error refusal, disk)) ∨
      makeOutermost (m := DiskM) inside (before ++ path :: rest) disk
        = (.ok (path :: (before.reverse ++ inside)), disk)
  | [], inside, hall => by
    obtain ⟨hrefuses, hpath⟩ := hall path (List.mem_singleton_self path)
    rcases makeOutermost_of_refuses hrefuses hpath inside rest with hrefused | ⟨-, heq⟩
    · exact .inl hrefused
    · refine .inr (heq.trans ?_)
      cases rest with
      | nil => rfl
      | cons next rest =>
        rcases hends with rfl | hstands
        · exact makeOutermost_of_empty _ rest
        · exact makeOutermost_of_stands hstands _ rest
  | asked :: before, inside, hall => by
    obtain ⟨hrefuses, hasked⟩ := hall asked List.mem_cons_self
    rw [List.cons_append]
    rcases makeOutermost_of_refuses hrefuses hasked inside (before ++ path :: rest) with hrefused |
      ⟨-, heq⟩
    · exact .inl hrefused
    · have hrest := makeOutermost_of_all_refuse hends before (asked :: inside)
        fun other hother => hall other (List.mem_cons_of_mem asked hother)
      rw [heq, List.reverse_cons, List.append_assoc, List.singleton_append]
      exact hrest

/-! ### Ancestors -/

/-- Whatever names lead to, each start of them leads to a directory. -/
theorem walk_take_of_follow {place : Place} {names : List String} {destination : Destination}
    (h : disk.follow place names = .ok destination) {n : Nat} (hn : n < names.length) :
    (disk.walk place (names.take n)).isSome := by
  by_contra hwalk
  have hrest : names.drop n ≠ [] := by
    rw [← List.length_pos_iff, List.length_drop]
    omega
  obtain ⟨refusal, hrefusal⟩ := follow_append_of_none hrest (Option.not_isSome_iff_eq_none.mp hwalk)
  rw [List.take_append_drop, h] at hrefusal
  cases hrefusal

/-- If only names that stay in place are left out of a list, the starts of what
remains are starts of the list, up to such names. -/
theorem exists_take_of_sublist {steps names : List String} (h : steps.Sublist names)
    (hfilter : steps.filter (· ≠ ".") = names.filter (· ≠ ".")) :
    ∀ n < steps.length, ∃ k < names.length,
      (steps.take n).filter (· ≠ ".") = (names.take k).filter (· ≠ ".") := by
  induction h with
  | slnil => exact fun n hn => absurd hn (Nat.not_lt_zero n)
  | @cons steps names name hsub ih =>
    intro n hn
    by_cases hname : name = "."
    · rw [List.filter_cons_of_neg (by simpa using hname)] at hfilter
      obtain ⟨k, hk, heq⟩ := ih hfilter n hn
      refine ⟨k + 1, Nat.succ_lt_succ hk, ?_⟩
      rw [heq, List.take_succ_cons, List.filter_cons_of_neg (by simpa using hname)]
    · -- A name that leads on cannot be left out.
      rw [List.filter_cons_of_pos (by simpa using hname)] at hfilter
      have hlength := (hsub.filter (· ≠ ".")).length_le
      rw [hfilter, List.length_cons] at hlength
      omega
  | @cons_cons steps names name hsub ih =>
    intro n hn
    cases n with
    | zero => exact ⟨0, Nat.succ_pos _, rfl⟩
    | succ n =>
      have hrest : steps.filter (· ≠ ".") = names.filter (· ≠ ".") := by
        rw [List.filter_cons, List.filter_cons] at hfilter
        split_ifs at hfilter
        · exact (List.cons.inj hfilter).2
        · exact hfilter
      obtain ⟨k, hk, heq⟩ := ih hrest n (Nat.lt_of_succ_lt_succ hn)
      refine ⟨k + 1, Nat.succ_lt_succ hk, ?_⟩
      rw [List.take_succ_cons, List.take_succ_cons, List.filter_cons, List.filter_cons, heq]

/-- A path that another one leads through, whatever is on the disk. -/
def Through (path above : String) : Prop :=
  ∀ (disk : Disk) (destination : Destination),
    disk.find path = .ok destination → (disk.home above).isSome

theorem home_upTo (disk : Disk) (path : String) (n : Nat) :
    disk.home (Path.upTo path n) = disk.walk (disk.origin path) ((Path.steps path).take n) := by
  rw [home, origin, Path.isAbsolute_upTo, Path.names_upTo, ← origin]

theorem through_upTo (path : String) {n : Nat} (hn : n < (Path.steps path).length) :
    Through path (Path.upTo path n) := by
  intro disk destination hfind
  rw [find_of_admits (admits_of_find hfind)] at hfind
  obtain ⟨k, hk, heq⟩ := exists_take_of_sublist (Path.steps_sublist path) (Path.filter_steps path)
    n hn
  rw [home_upTo, ← walk_filter, heq, walk_filter]
  exact walk_take_of_follow hfind hk

theorem upTo_through_upTo (path : String) {n m : Nat} (hn : n < m)
    (hm : m < (Path.steps path).length) : Through (Path.upTo path m) (Path.upTo path n) := by
  intro disk destination hfind
  rw [find_of_admits (admits_of_find hfind), origin, Path.isAbsolute_upTo, Path.names_upTo,
    ← origin] at hfind
  have hwalk := walk_take_of_follow hfind (n := n) (by rw [List.length_take]; omega)
  rwa [List.take_take, Nat.min_eq_left hn.le, ← home_upTo] at hwalk

/-- A directory stands in directories. -/
theorem home_ancestors {above : String} (h : (disk.home path).isSome)
    (habove : above ∈ Path.ancestors path) : (disk.home above).isSome := by
  rw [Path.ancestors_eq] at habove
  rcases List.mem_cons.mp habove with rfl | habove
  · exact h
  · obtain ⟨n, -, rfl⟩ := List.mem_map.mp habove
    rw [home, ← walk_filter, ← Path.filter_steps, walk_filter,
      ← List.take_append_drop n (Path.steps path), walk_append] at h
    rw [home_upTo]
    exact Option.isSome_of_isSome_bind h

/-- What relates a path to all paths above it, and these to those further up,
relates each of its ancestors to all that come after it. -/
theorem pairwise_ancestors_of {R : String → String → Prop} {path : String}
    (hpath : ∀ n < (Path.steps path).length, R path (Path.upTo path n))
    (habove : ∀ n m, n < m → m < (Path.steps path).length →
      R (Path.upTo path m) (Path.upTo path n)) : (Path.ancestors path).Pairwise R := by
  rw [Path.ancestors_eq, List.pairwise_cons, List.pairwise_map, List.pairwise_reverse]
  constructor
  · intro above hmem
    obtain ⟨n, hn, rfl⟩ := List.mem_map.mp hmem
    exact hpath n (List.mem_range.mp (List.mem_reverse.mp hn))
  · refine List.Pairwise.imp_of_mem (fun _ hm hlt => ?_) List.pairwise_lt_range
    exact habove _ _ hlt (List.mem_range.mp hm)

/-- Each ancestor of a path leads through those above it. -/
theorem pairwise_ancestors (path : String) : (Path.ancestors path).Pairwise Through :=
  pairwise_ancestors_of (fun _ => through_upTo path) fun _ _ => upTo_through_upTo path

/-! ### Making a directory with those above it -/

theorem makeDirectories_eq_of_error {output : String} {refusal : StorageError}
    (h : makeOutermost (m := DiskM) [] (Path.ancestors output) disk = (.error refusal, final)) :
    makeDirectories (m := DiskM) output disk = (.error refusal, final) := by
  rw [makeDirectories, DiskM.bind_apply, h]
  rfl

theorem makeDirectories_eq_of_ok {output : String} {inside : List String}
    (h : makeOutermost (m := DiskM) [] (Path.ancestors output) disk = (.ok inside, final)) :
    makeDirectories (m := DiskM) output disk = makeEach (m := DiskM) inside final := by
  rw [makeDirectories, DiskM.bind_apply, h]

/-- A directory that is there is left as it is. -/
theorem makeDirectories_of_stands {output : String} (h : output = "" ∨ disk.Stands output) :
    makeDirectories (m := DiskM) output disk = (.ok (), disk) := by
  have houtermost : makeOutermost (m := DiskM) [] (Path.ancestors output) disk
      = (.ok [], disk) := by
    rw [Path.ancestors_eq]
    rcases h with rfl | hstands
    · exact makeOutermost_of_empty [] _
    · exact makeOutermost_of_stands hstands [] _
  exact makeDirectories_eq_of_ok houtermost

/-- Nothing is made for a path that is not followed. -/
theorem makeDirectories_of_not_admits {output : String} (h : admits output = false) :
    (makeDirectories (m := DiskM) output disk).2 = disk := by
  by_cases hempty : output = ""
  · rw [makeDirectories_of_stands (.inl hempty)]
  · have hnot : ∃ refusal, disk.find output = .error refusal ∧
        (output ≠ "" → refusal ≠ .notFound) :=
      find_of_not_admits h
    obtain ⟨refusal, hfind, -⟩ := hnot
    have houtermost := makeOutermost_of_refuses (.inl ⟨refusal, hfind⟩) hempty []
      ((List.range (Path.steps output).length).reverse.map (Path.upTo output))
    rw [← Path.ancestors_eq] at houtermost
    rcases houtermost with ⟨refusal', houtermost⟩ | ⟨hadmits, -⟩
    · rw [makeDirectories_eq_of_error houtermost]
    · rw [h] at hadmits
      cases hadmits

/-- A directory that is there under a path that is not followed is left as it is, too. -/
theorem eq_of_made_or_refused {output : String} {result : Except StorageError Unit}
    (hhome : (disk.home output).isSome)
    (h : makeDirectories (m := DiskM) output disk = (result, final)) : final = disk := by
  by_cases hpath : admits output = true
  · rw [makeDirectories_of_stands (.inr ⟨hpath, hhome⟩)] at h
    exact (Prod.mk.inj h).2.symm
  · have hsame : (makeDirectories (m := DiskM) output disk).2 = disk :=
      makeDirectories_of_not_admits (Bool.eq_false_iff.mpr hpath)
    rwa [h] at hsame

/-- An ancestor that refuses while there is something above it makes every
attempt fail, and nothing is changed. -/
theorem makeDirectories_of_refuses {output : String} {inner outer : List String}
    (hsplit : Path.ancestors output = inner ++ path :: outer)
    (hadmits : ∀ asked ∈ inner ++ [path], admits asked = true) (hrefuses : disk.Refuses path)
    (hends : EndsAt disk outer) :
    ∃ refusal, makeDirectories (m := DiskM) output disk = (.error refusal, disk) := by
  -- None of the paths further in can be reached, as all of them lead through this one.
  have hpairwise := pairwise_ancestors output
  rw [hsplit] at hpairwise
  have hpath : admits path = true :=
    hadmits path (List.mem_append_right inner (List.mem_singleton_self path))
  have hall (asked : String) (hasked : asked ∈ inner ++ [path]) :
      disk.Refuses asked ∧ asked ≠ "" := by
    refine ⟨?_, fun hempty => ?_⟩
    · rcases List.mem_append.mp hasked with hinner | hasked
      · -- What lies further in cannot be reached either.
        have hthrough : Through asked path :=
          (List.pairwise_append.mp hpairwise).2.2 asked hinner path List.mem_cons_self
        rcases stands_or_free_or_refuses disk asked with hstands | ⟨place, hfree⟩ | hasked
        · obtain ⟨place, hfind⟩ := stands_iff.mp hstands
          exact absurd hrefuses (Stands.not_refuses ⟨hpath, hthrough disk _ hfind⟩)
        · exact absurd hrefuses (Stands.not_refuses ⟨hpath, hthrough disk _ hfree⟩)
        · exact hasked
      · rwa [List.mem_singleton.mp hasked]
    · exact ne_empty_of_admits (hadmits asked hasked) (String.isEmpty_iff.mpr hempty)
  have houtermost := makeOutermost_of_all_refuse hends inner [] hall
  rw [← hsplit] at houtermost
  rcases houtermost with ⟨refusal, houtermost⟩ | houtermost
  · exact ⟨refusal, makeDirectories_eq_of_error houtermost⟩
  · rw [makeDirectories_eq_of_ok houtermost]
    exact makeEach_of_refuses hrefuses _

/-- Where making the visited ancestors one by one has stopped, it stops again. -/
theorem makeDirectories_of_stopped {output : String} {visited rest before after : List String}
    (hsplit : Path.ancestors output = visited ++ rest)
    (hvisited : ∀ asked ∈ visited, admits asked = true) (hends : EndsAt disk rest)
    (hbefore : visited.reverse = before ++ path :: after)
    (hstands : ∀ asked ∈ before, disk.Stands asked) (hrefuses : disk.Refuses path) :
    ∃ refusal, makeDirectories (m := DiskM) output disk = (.error refusal, disk) := by
  have hvisited' : visited = after.reverse ++ path :: before.reverse := by
    rw [← List.reverse_inj, hbefore]
    simp
  have hsplit' : Path.ancestors output = after.reverse ++ path :: (before.reverse ++ rest) := by
    rw [hsplit, hvisited', List.append_assoc, List.cons_append]
  have hends' : EndsAt disk (before.reverse ++ rest) := by
    cases hreverse : before.reverse with
    | nil => exact hends
    | cons next others =>
      refine .inr (hstands next (List.mem_reverse.mp ?_))
      rw [hreverse]
      exact List.mem_cons_self
  refine makeDirectories_of_refuses hsplit' (fun asked hasked => hvisited asked ?_) hrefuses hends'
  rw [hvisited', ← List.singleton_append, ← List.append_assoc]
  exact List.mem_append_left _ hasked

/-- **Directories are made or refused, once and for all.**  The disk gains at
most directories that the path leads through.  If the attempt succeeds, the
path leads to a directory; if not, the next attempt fails too and changes
nothing more. -/
theorem makeDirectories_spec (output : String) (disk : Disk) :
    (∃ final, makeDirectories (m := DiskM) output disk = (.ok (), final) ∧
      Grows (Path.ancestors output) disk final ∧ (output = "" ∨ final.Stands output)) ∨
    ∃ refusal refusal' final, makeDirectories (m := DiskM) output disk = (.error refusal, final) ∧
      Grows (Path.ancestors output) disk final ∧
      makeDirectories (m := DiskM) output final = (.error refusal', final) := by
  rcases makeOutermost_spec disk (Path.ancestors output) [] with ⟨refusal, houtermost⟩ |
    ⟨visited, rest, reached, hsplit, houtermost, hgrows, hvisited, hends⟩
  · have hmake := makeDirectories_eq_of_error houtermost
    exact .inr ⟨refusal, refusal, disk, hmake, Grows.refl _ disk, hmake⟩
  · rw [List.append_nil] at houtermost
    have hmake := makeDirectories_eq_of_ok houtermost
    obtain ⟨hrest, hmade⟩ := makeEach_spec visited.reverse reached
    rw [← hmake] at hrest hmade
    -- What the search adds, and what is added behind it, lies on the way to the output.
    have hall : Grows (Path.ancestors output) disk
        (makeDirectories (m := DiskM) output disk).2 := by
      refine hgrows.trans (hrest.mono fun path hpath => ?_)
      rw [hsplit]
      exact List.mem_append_left rest (List.mem_reverse.mp hpath)
    cases hresult : makeDirectories (m := DiskM) output disk with
    | mk result final =>
      rw [hresult] at hrest hmade hall
      cases hmade with
      | all hstands =>
        refine .inl ⟨final, rfl, hall, ?_⟩
        cases visited with
        | nil =>
          -- The path itself was made, or there.
          rw [Path.ancestors_eq, List.nil_append] at hsplit
          rw [← hsplit] at hends
          exact hends.imp_right hrest.stands
        | cons first visited =>
          obtain rfl : output = first := (List.cons.inj hsplit).1
          exact .inr (hstands output (List.mem_reverse.mpr List.mem_cons_self))
      | upTo hbefore hstands hrefuses =>
        obtain ⟨refusal', hagain⟩ := makeDirectories_of_stopped hsplit hvisited
          (hends.mono hrest) hbefore hstands hrefuses
        exact .inr ⟨_, refusal', final, rfl, hall, hagain⟩

theorem grows_of_made {output : String}
    (h : makeDirectories (m := DiskM) output disk = (.ok (), final)) :
    Grows (Path.ancestors output) disk final ∧ (output = "" ∨ final.Stands output) := by
  rcases makeDirectories_spec output disk with ⟨final', hmake, hspec⟩ |
    ⟨refusal, refusal', final', hmake, -⟩
  · rw [h] at hmake
    cases hmake
    exact hspec
  · rw [h] at hmake
    cases hmake

theorem grows_of_refused {output : String} {refusal : StorageError}
    (h : makeDirectories (m := DiskM) output disk = (.error refusal, final)) :
    Grows (Path.ancestors output) disk final ∧
      ∃ refusal', makeDirectories (m := DiskM) output final = (.error refusal', final) := by
  rcases makeDirectories_spec output disk with ⟨final', hmake, -⟩ |
    ⟨refusal', refusal'', final', hmake, hgrows, hagain⟩
  · rw [h] at hmake
    cases hmake
  · rw [h] at hmake
    cases hmake
    exact ⟨hgrows, refusal'', hagain⟩

theorem grows_of_makeDirectories {output : String} {result : Except StorageError Unit}
    (h : makeDirectories (m := DiskM) output disk = (result, final)) :
    Grows (Path.ancestors output) disk final := by
  cases result with
  | ok made => exact (grows_of_made h).1
  | error refusal => exact (grows_of_refused h).1

end Pagewright
