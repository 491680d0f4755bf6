/-
What stands on a disk, and where its paths lead to.

`Disk.home` is the directory that a path leads to, if it leads to one: it asks
the disk for its directories only (`home_congr`).  `Disk.spot` is the place of
a name in a directory.  A name of a file put below a path is found at its spot
(`find_join`, `findEntry_join`) or not at all (`find_join_none`).

* `entryAt_put`, `entryAt_erase` — what an entry that comes or goes changes;
* `Disk.Same`, `Disk.Alike` — disks with the same entries, or the same directories;
* `freshName_spec` — the name of a new file is the first one that is free.
-/
import Mathlib.Data.List.Perm.Subperm
import Pagewright.Proofs.Names

namespace Pagewright

namespace Disk

variable {disk other : Disk} {place : Place} {entry : DiskEntry}

/-! ### Entries -/

theorem entryAt_put (h : place ≠ []) (asked : Place) :
    (disk.put place entry).entryAt asked
      = if asked = place then some entry else disk.entryAt asked := by
  rw [entryAt, entryAt, put]
  by_cases hasked : asked = place
  · have hempty : asked.isEmpty = false := by simpa [hasked] using h
    rw [if_pos hasked, hempty, hasked]
    exact lookup_putEntry.trans (by simp)
  · rw [if_neg hasked]
    congr 1
    exact lookup_putEntry.trans (by simp [hasked])

theorem lookup_filter_ne {asked : Place} (h : asked ≠ place) :
    ∀ entries : List (Place × DiskEntry),
      (entries.filter (·.1 ≠ place)).lookup asked = entries.lookup asked
  | [] => rfl
  | (here, entry) :: rest => by
    by_cases hhere : here = place
    · have hasked : (asked == here) = false := beq_eq_false_iff_ne.mpr (hhere ▸ h)
      rw [List.filter_cons_of_neg (by simpa using hhere), List.lookup_cons, hasked]
      exact lookup_filter_ne h rest
    · rw [List.filter_cons_of_pos (by simpa using hhere), List.lookup_cons, List.lookup_cons,
        lookup_filter_ne h rest]

theorem lookup_filter_self (entries : List (Place × DiskEntry)) :
    (entries.filter (·.1 ≠ place)).lookup place = none := by
  rw [List.lookup_eq_none_iff]
  intro entry hentry
  have hne := (List.mem_filter.mp hentry).2
  simpa using Ne.symm (by simpa using hne)

theorem entryAt_erase (h : place ≠ []) (asked : Place) :
    (disk.erase place).entryAt asked
      = if asked = place then none else disk.entryAt asked := by
  rw [entryAt, entryAt, erase]
  by_cases hasked : asked = place
  · have hempty : asked.isEmpty = false := by simpa [hasked] using h
    rw [if_pos hasked, hempty, hasked]
    exact lookup_filter_self _
  · rw [if_neg hasked, lookup_filter_ne hasked]

/-- Two disks with the same entry at every place. -/
structure Same (disk other : Disk) : Prop where
  start : other.start = disk.start
  entryAt : ∀ place, other.entryAt place = disk.entryAt place

theorem Same.refl (disk : Disk) : Same disk disk :=
  ⟨rfl, fun _ => rfl⟩

theorem Same.trans {third : Disk} (h : Same disk other) (h' : Same other third) :
    Same disk third :=
  ⟨h'.start.trans h.start, fun place => (h'.entryAt place).trans (h.entryAt place)⟩

/-- Whether there is a directory at a place. -/
def holdsDirectory (disk : Disk) (place : Place) : Bool :=
  match disk.entryAt place with
  | some .directory => true
  | _ => false

theorem holdsDirectory_iff :
    disk.holdsDirectory place = true ↔ disk.entryAt place = some .directory := by
  rw [holdsDirectory]
  split <;> simp_all

/-- Two disks with the same directories. -/
structure Alike (disk other : Disk) : Prop where
  start : other.start = disk.start
  holdsDirectory : ∀ place, other.holdsDirectory place = disk.holdsDirectory place

theorem Same.alike (h : Same disk other) : Alike disk other :=
  ⟨h.start, fun place => by rw [Disk.holdsDirectory, h.entryAt, ← Disk.holdsDirectory]⟩

theorem Alike.symm (h : Alike disk other) : Alike other disk :=
  ⟨h.start.symm, fun place => (h.holdsDirectory place).symm⟩

theorem Alike.trans {third : Disk} (h : Alike disk other) (h' : Alike other third) :
    Alike disk third :=
  ⟨h'.start.trans h.start, fun place => (h'.holdsDirectory place).trans (h.holdsDirectory place)⟩

/-- A file that comes where there is no directory leaves the directories as they are. -/
theorem alike_put_file (h : place ≠ []) (hplace : disk.holdsDirectory place = false)
    (content : ByteArray) : Alike disk (disk.put place (.file content)) := by
  refine ⟨rfl, fun asked => ?_⟩
  by_cases hasked : asked = place
  · rw [hasked, hplace, holdsDirectory, entryAt_put h, if_pos rfl]
  · rw [holdsDirectory, entryAt_put h, if_neg hasked, ← holdsDirectory]

theorem alike_erase (h : place ≠ []) (hplace : disk.holdsDirectory place = false) :
    Alike disk (disk.erase place) := by
  refine ⟨rfl, fun asked => ?_⟩
  by_cases hasked : asked = place
  · rw [hasked, hplace, holdsDirectory, entryAt_erase h, if_pos rfl]
  · rw [holdsDirectory, entryAt_erase h, if_neg hasked, ← holdsDirectory]

/-! ### Directories -/

/-- The directory that a name leads to from a directory. -/
def enter (disk : Disk) (place : Place) (name : String) : Option Place :=
  if name = "." then some place
  else if name = ".." then some place.dropLast
  else if name.utf8ByteSize ≤ nameLimit ∧ disk.holdsDirectory (place ++ [name]) then
    some (place ++ [name])
  else none

/-- The directory that names lead to from a directory. -/
def walk (disk : Disk) (place : Place) (names : List String) : Option Place :=
  names.foldlM disk.enter place

/-- Where the names of a path start from. -/
def origin (disk : Disk) (path : String) : Place :=
  if Path.isAbsolute path then [] else disk.start

/-- The directory that a path leads to. -/
def home (disk : Disk) (path : String) : Option Place :=
  disk.walk (disk.origin path) (Path.names path)

theorem Alike.walk (h : Alike disk other) (place : Place) (names : List String) :
    other.walk place names = disk.walk place names := by
  have henter : other.enter = disk.enter := by
    funext place name
    rw [enter, enter, h.holdsDirectory]
  rw [Disk.walk, Disk.walk, henter]

theorem Alike.origin (h : Alike disk other) (path : String) :
    other.origin path = disk.origin path := by
  rw [Disk.origin, Disk.origin, h.start]

/-- Only the directories decide where a path leads to. -/
theorem Alike.home (h : Alike disk other) (path : String) : other.home path = disk.home path := by
  rw [Disk.home, Disk.home, h.walk, h.origin]

theorem walk_cons (place : Place) (name : String) (names : List String) :
    disk.walk place (name :: names) = (disk.enter place name).bind (disk.walk · names) :=
  List.foldlM_cons ..

theorem walk_append (place : Place) (names rest : List String) :
    disk.walk place (names ++ rest) = (disk.walk place names).bind (disk.walk · rest) :=
  List.foldlM_append ..

theorem walk_filter (names : List String) :
    ∀ place : Place, disk.walk place (names.filter (· ≠ ".")) = disk.walk place names := by
  induction names with
  | nil => exact fun _ => rfl
  | cons name names ih =>
    intro place
    by_cases hname : name = "."
    · rw [List.filter_cons_of_neg (by simpa using hname), walk_cons, enter, if_pos hname]
      exact ih place
    · rw [List.filter_cons_of_pos (by simpa using hname), walk_cons, walk_cons]
      exact congrArg _ (funext ih)

/-! ### Following -/

theorem follow_plain {name : String} (names : List String) (hhere : name ≠ ".")
    (hup : name ≠ "..") (hfits : name.utf8ByteSize ≤ nameLimit) :
    disk.follow place (name :: names)
      = match disk.entryAt (place ++ [name]) with
        | some .directory => disk.follow (place ++ [name]) names
        | some entry =>
          if names.isEmpty then .ok (.entry (place ++ [name]) entry) else .error .notDirectory
        | none => if names.isEmpty then .ok (.free (place ++ [name])) else .error .notFound := by
  rw [follow]
  exact (if_neg hhere).trans ((if_neg hup).trans (if_neg (by omega)))

theorem follow_long {name : String} (names : List String) (hhere : name ≠ ".")
    (hup : name ≠ "..") (hlong : ¬name.utf8ByteSize ≤ nameLimit) :
    disk.follow place (name :: names) = .error .nameTooLong := by
  rw [follow, if_neg hhere, if_neg hup, if_pos (by omega)]

theorem follow_cons_of_enter {inner : Place} {name : String} (names : List String)
    (h : disk.enter place name = some inner) :
    disk.follow place (name :: names) = disk.follow inner names := by
  rw [enter] at h
  split_ifs at h with hhere hup hfits
  · rw [follow, if_pos hhere, Option.some.inj h]
  · rw [follow, if_neg hhere, if_pos hup, Option.some.inj h]
  · rw [follow_plain names hhere hup hfits.1, holdsDirectory_iff.mp hfits.2, Option.some.inj h]

/-- A name that leads into no directory leads nowhere further. -/
theorem follow_cons_of_none {name next : String} {names : List String}
    (h : disk.enter place name = none) :
    ∃ refusal, disk.follow place (name :: next :: names) = .error refusal := by
  rw [enter] at h
  split_ifs at h with hhere hup hfits
  by_cases hlong : name.utf8ByteSize ≤ nameLimit
  · rw [follow_plain _ hhere hup hlong]
    cases hentry : disk.entryAt (place ++ [name]) with
    | none => exact ⟨.notFound, rfl⟩
    | some entry =>
      cases entry with
      | file content => exact ⟨.notDirectory, rfl⟩
      | directory => exact absurd ⟨hlong, holdsDirectory_iff.mpr hentry⟩ hfits
  · exact ⟨_, follow_long _ hhere hup hlong⟩

/-- From a directory on, names are followed as if they started there. -/
theorem follow_append (rest : List String) {reached : Place} {names : List String} :
    ∀ {place : Place}, disk.walk place names = some reached →
      disk.follow place (names ++ rest) = disk.follow reached rest := by
  induction names with
  | nil => rintro place h; rw [Option.some.inj h]; rfl
  | cons name names ih =>
    intro place h
    rw [walk_cons] at h
    obtain ⟨inner, hinner, h⟩ := Option.bind_eq_some_iff.mp h
    rw [List.cons_append, follow_cons_of_enter _ hinner, ih h]

/-- Names that lead to no directory lead nowhere further. -/
theorem follow_append_of_none {rest : List String} (hrest : rest ≠ []) {names : List String} :
    ∀ {place : Place}, disk.walk place names = none →
      ∃ refusal, disk.follow place (names ++ rest) = .error refusal := by
  induction names with
  | nil => rintro place h; cases h
  | cons name names ih =>
    intro place h
    rw [walk_cons] at h
    -- Either this name leads into no directory, or one further on does not.
    cases hinner : disk.enter place name with
    | none =>
      obtain ⟨next, later, hlater⟩ := List.exists_cons_of_ne_nil
        (List.append_ne_nil_of_right_ne_nil names hrest)
      rw [List.cons_append, hlater]
      exact follow_cons_of_none hinner
    | some inner =>
      rw [hinner] at h
      rw [List.cons_append, follow_cons_of_enter _ hinner]
      exact ih h

theorem follow_of_walk {reached : Place} {names : List String}
    (h : disk.walk place names = some reached) :
    disk.follow place names = .ok (.entry reached .directory) := by
  have happend := follow_append [] h
  rwa [List.append_nil] at happend

/-- What a place is to a path that leads there. -/
def destination (disk : Disk) (place : Place) : Destination :=
  match disk.entryAt place with
  | some entry => .entry place entry
  | none => .free place

theorem follow_single {name : String} (hhere : name ≠ ".") (hup : name ≠ "..") :
    disk.follow place [name]
      = if name.utf8ByteSize ≤ nameLimit then .ok (disk.destination (place ++ [name]))
        else .error .nameTooLong := by
  split_ifs with hfits
  · rw [follow_plain _ hhere hup hfits, destination]
    cases disk.entryAt (place ++ [name]) with
    | none => rfl
    | some entry => cases entry <;> rfl
  · exact follow_long _ hhere hup hfits

theorem follow_single_of_none {name : String} (h : disk.enter place name = none) :
    (∃ refusal, disk.follow place [name] = .error refusal) ∨
      disk.holdsDirectory (place ++ [name]) = false ∧ name ≠ "." ∧ name ≠ ".." ∧
        name.utf8ByteSize ≤ nameLimit ∧
        disk.follow place [name] = .ok (disk.destination (place ++ [name])) := by
  rw [enter] at h
  split_ifs at h with hhere hup hfits
  rw [follow_single hhere hup]
  split_ifs with hlong
  · exact .inr ⟨Bool.eq_false_iff.mpr fun hplace => hfits ⟨hlong, hplace⟩, hhere, hup, hlong, rfl⟩
  · exact .inl ⟨_, rfl⟩

/-- Names lead to a directory, or nowhere, or the last of them to something
else in a directory. -/
theorem follow_cases (disk : Disk) (place : Place) (names : List String) :
    (∃ reached, disk.walk place names = some reached) ∨
      (∃ refusal, disk.follow place names = .error refusal) ∨
      ∃ before name reached, names = before ++ [name] ∧ disk.walk place before = some reached ∧
        disk.holdsDirectory (reached ++ [name]) = false ∧ name ≠ "." ∧ name ≠ ".." ∧
        name.utf8ByteSize ≤ nameLimit ∧
        disk.follow place names = .ok (disk.destination (reached ++ [name])) := by
  -- All names but the last must lead to a directory; the last one may lead elsewhere.
  rcases List.eq_nil_or_concat' names with rfl | ⟨before, name, rfl⟩
  · exact .inl ⟨place, rfl⟩
  · cases hbefore : disk.walk place before with
    | none => exact .inr (.inl (follow_append_of_none (List.cons_ne_nil _ _) hbefore))
    | some reached =>
      rw [follow_append [name] hbefore, walk_append, hbefore]
      cases hinner : disk.enter reached name with
      | some inner => exact .inl ⟨inner, by rw [Option.bind_some, walk_cons, hinner]; rfl⟩
      | none =>
        rcases follow_single_of_none hinner with hrefusal | hfree
        · exact .inr (.inl hrefusal)
        · exact .inr (.inr ⟨before, name, reached, rfl, hbefore, hfree⟩)

theorem destination_eq_directory {reached : Place}
    (h : disk.destination place = .entry reached .directory) :
    disk.holdsDirectory place = true := by
  rw [destination] at h
  split at h
  · rename_i entry hentry
    injection h with hplace hdirectory
    rw [holdsDirectory_iff, hentry, hdirectory]
  · cases h

theorem walk_of_follow {reached : Place} {names : List String}
    (h : disk.follow place names = .ok (.entry reached .directory)) :
    disk.walk place names = some reached := by
  rcases follow_cases disk place names with ⟨other, hwalk⟩ | ⟨refusal, hfollow⟩ |
    ⟨before, name, inner, -, -, hinner, -, -, -, hfollow⟩
  · rw [follow_of_walk hwalk] at h
    rw [hwalk]
    injection h with h
    injection h with h
    rw [h]
  · rw [hfollow] at h
    cases h
  · rw [hfollow] at h
    rw [destination_eq_directory (Except.ok.inj h)] at hinner
    cases hinner

/-! ### Finding -/

/-- Whether a path is followed at all. -/
def admits (path : String) : Bool :=
  !path.isEmpty && !path.toList.contains '\x00' && path.utf8ByteSize ≤ pathLimit

theorem find_of_admits {path : String} (h : admits path = true) :
    disk.find path = disk.follow (disk.origin path) (Path.names path) := by
  rw [admits, Bool.and_eq_true, Bool.and_eq_true, Bool.not_eq_true', Bool.not_eq_true',
    decide_eq_true_eq] at h
  rw [find, h.1.1, h.1.2, if_neg Bool.false_ne_true, if_neg Bool.false_ne_true,
    if_neg (by omega)]
  rfl

theorem find_of_not_admits {path : String} (h : admits path = false) :
    ∃ refusal, disk.find path = .error refusal ∧ (path ≠ "" → refusal ≠ .notFound) := by
  rw [find]
  split_ifs with hempty hnul hlong
  · exact ⟨_, rfl, fun hpath => absurd (String.isEmpty_iff.mp hempty) hpath⟩
  · exact ⟨_, rfl, fun _ => by decide⟩
  · exact ⟨_, rfl, fun _ => by decide⟩
  -- What is left is a path that is followed, against the assumption.
  all_goals
    simp only [admits, hempty, hnul, Bool.not_false, Bool.and_self, Bool.true_and,
      decide_eq_false_iff_not] at h
    omega

/-- A path that leads to a directory is found. -/
theorem find_of_home {path : String} {place : Place} (hpath : admits path = true)
    (h : disk.home path = some place) : disk.find path = .ok (.entry place .directory) := by
  rw [find_of_admits hpath]
  exact follow_of_walk h

/-- The place of a name in the directory that a path leads to, if the path of both is followed. -/
def spot (disk : Disk) (directory name : String) : Option Place :=
  if admits (Path.join directory name) ∧ name.utf8ByteSize ≤ nameLimit then
    (disk.home directory).map (· ++ [name])
  else none

theorem Alike.spot (h : Alike disk other) (directory name : String) :
    other.spot directory name = disk.spot directory name := by
  rw [Disk.spot, Disk.spot, h.home]

theorem getLast?_of_spot {directory name : String} (h : disk.spot directory name = some place) :
    place.getLast? = some name := by
  rw [spot] at h
  split_ifs at h
  obtain ⟨home, -, rfl⟩ := Option.map_eq_some_iff.mp h
  exact List.getLast?_concat

theorem ne_nil_of_spot {directory name : String} (h : disk.spot directory name = some place) :
    place ≠ [] := by
  rintro rfl
  cases getLast?_of_spot h

section Join

variable {directory name : String} (hn : Path.Plain name)

include hn

theorem find_join_eq (hpath : admits (Path.join directory name) = true) :
    disk.find (Path.join directory name)
      = disk.follow (disk.origin directory) (Path.names directory ++ [name]) := by
  rw [find_of_admits hpath, Path.names_join directory hn.toIsName, origin, origin,
    Path.isAbsolute_join directory hn.toIsName]

/-- A name below a path is found at its spot. -/
theorem find_join (h : disk.spot directory name = some place) :
    disk.find (Path.join directory name) = .ok (disk.destination place) := by
  rw [spot] at h
  split_ifs at h with hfits
  obtain ⟨home, hhome, rfl⟩ := Option.map_eq_some_iff.mp h
  rw [find_join_eq hn hfits.1, follow_append [name] hhome, follow_single hn.here hn.up,
    if_pos hfits.2]

theorem find_join_none (h : disk.spot directory name = none) :
    ∃ refusal, disk.find (Path.join directory name) = .error refusal := by
  by_cases hpath : admits (Path.join directory name) = true
  · rw [find_join_eq hn hpath]
    cases hhome : disk.home directory with
    | none => exact follow_append_of_none (by simp) hhome
    | some home =>
      rw [follow_append [name] hhome, follow_single hn.here hn.up]
      split_ifs with hfits
      · rw [spot, if_pos ⟨hpath, hfits⟩, hhome] at h
        cases h
      · exact ⟨_, rfl⟩
  · obtain ⟨refusal, hrefusal, -⟩ := find_of_not_admits (Bool.eq_false_iff.mpr hpath)
    exact ⟨refusal, hrefusal⟩

theorem findEntry_join (h : disk.spot directory name = some place) :
    disk.findEntry (Path.join directory name)
      = match disk.entryAt place with
        | some entry => .ok (place, entry)
        | none => .error .notFound := by
  -- A path that ends in a name does not ask for a directory.
  have hslash := Path.endsInSlash_join directory hn.toIsName
  rw [findEntry, find_join hn h, destination]
  cases disk.entryAt place with
  | none => rfl
  | some entry =>
    cases entry with
    | file content =>
      show (if _ then _ else _) = _
      rw [if_neg (by simp [hslash])]
    | directory => rfl

theorem findEntry_join_none (h : disk.spot directory name = none) :
    ∃ refusal, disk.findEntry (Path.join directory name) = .error refusal := by
  obtain ⟨refusal, hrefusal⟩ := find_join_none hn h
  exact ⟨refusal, by rw [findEntry, hrefusal]; rfl⟩

/-- Of the files below a path, the disk says what stands at their spots. -/
theorem toOption_findEntry_join (directory : String) :
    (disk.findEntry (Path.join directory name)).toOption
      = (disk.spot directory name).bind fun place => (disk.entryAt place).map (place, ·) := by
  cases hspot : disk.spot directory name with
  | none =>
    obtain ⟨refusal, hrefusal⟩ := findEntry_join_none hn hspot
    rw [hrefusal]
    rfl
  | some place =>
    rw [findEntry_join hn hspot, Option.bind_some]
    cases disk.entryAt place <;> rfl

theorem write_join (h : disk.spot directory name = some place)
    (hplace : disk.holdsDirectory place = false) (content : ByteArray) :
    disk.write (Path.join directory name) content = .ok (disk.put place (.file content)) := by
  have hslash := Path.endsInSlash_join directory hn.toIsName
  rw [write, find_join hn h, destination]
  cases hentry : disk.entryAt place with
  | none =>
    show (if _ then _ else _) = _
    rw [if_neg (by simp [hslash])]
  | some entry =>
    cases entry with
    | file old =>
      show (if _ then _ else _) = _
      rw [if_neg (by simp [hslash])]
    | directory => rw [holdsDirectory_iff.mpr hentry] at hplace; cases hplace

end Join

end Disk

end Pagewright
