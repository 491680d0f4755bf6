/-
What is extracted from some sources.

A source that is a directory stands for the page files directly in it, in the
order of the bytes of their names.  In which order the system enumerates the
directory makes no difference, since the names are sorted.

* `Path.extension?_join_iff` — the names of page files;
* `Disk.Denotes` — the files that a source stands for, and `exists_denotes`:  a
  source is enumerated as these files;
* `Enumeration` — the orders in which directories are enumerated, one for every
  time that one is, and `agrees_extract`:  none of them changes a result;
* `extract_complete` — every file that a source stands for is extracted, either as a
  page or as a failure;
* `extract_unreachable` — a file whose path is too long is not enumerated.
-/
import Pagewright.Proofs.ByteOrder
import Pagewright.Proofs.Loading
import Pagewright.Proofs.Report

namespace Pagewright

/-! ### Names of page files -/

namespace Path

instance (name : String) : Decidable (Component name) :=
  decidable_of_iff
    (((name.toList ≠ [] ∧ '/' ∉ name.toList) ∧ name ≠ "." ∧ name ≠ "..") ∧ '\x00' ∉ name.toList)
    ⟨fun ⟨⟨⟨hne, hslash⟩, hhere, hup⟩, hnul⟩ => ⟨⟨⟨hne, hslash⟩, hhere, hup⟩, hnul⟩,
      fun h => ⟨⟨⟨h.nonempty, h.slash⟩, h.here, h.up⟩, h.nul⟩⟩

/-- A name has a dot behind its first character, and `json` behind its last dot. -/
def IsPageFileName (name : String) : Prop :=
  ∃ stem : List Char, stem ≠ [] ∧ name.toList = stem ++ '.' :: "json".toList

theorem splitExtension_eq_some_iff {name extension : List Char} :
    (splitExtension name).2 = some extension ↔
      ∃ stem, stem ≠ [] ∧ name = stem ++ '.' :: extension ∧ '.' ∉ extension := by
  constructor
  · intro h
    rw [splitExtension] at h
    split_ifs at h with hempty
    obtain rfl := Option.some.inj h
    have hforeign : '.' ∉ name.reverse.takeWhile (· != '.') := by
      intro hmem
      simpa using List.all_eq_true.mp List.all_takeWhile _ hmem
    have hsplit : name.reverse.takeWhile (· != '.') ++ name.reverse.dropWhile (· != '.')
        = name.reverse := List.takeWhile_append_dropWhile
    cases hdrop : name.reverse.dropWhile (· != '.') with
    | nil => simp [hdrop] at hempty
    | cons dot before =>
      have hdot : dot = '.' := by
        have hne : name.reverse.dropWhile (· != '.') ≠ [] := by simp [hdrop]
        simpa [hdrop] using List.head_dropWhile_not (· != '.') hne
      rw [hdrop, hdot] at hsplit
      refine ⟨before.reverse, by simpa [hdrop] using hempty, ?_, by simpa using hforeign⟩
      generalize name.reverse.takeWhile (· != '.') = extension at hsplit ⊢
      rw [← List.reverse_inj, ← hsplit]
      simp
  · rintro ⟨stem, hstem, rfl, hextension⟩
    have hpos : ∀ c ∈ extension.reverse, (c != '.') = true := by
      intro c hc
      simpa using fun hdot => hextension (by simpa [hdot] using hc)
    have hreverse : (stem ++ '.' :: extension).reverse
        = extension.reverse ++ '.' :: stem.reverse := by simp
    rw [splitExtension, hreverse, List.takeWhile_append_of_pos hpos,
      List.dropWhile_append_of_pos hpos]
    simp [hstem]

theorem fileName?_join (directory : String) {name : String} (h : Plain name) :
    fileName? (join directory name) = some name := by
  have hlast : (steps (join directory name)).getLast? = some name := by
    rw [steps, names_join directory h.toIsName]
    cases names directory with
    | nil => simp [h.here]
    | cons first rest => simp [h.here, List.filter_append]
  rw [fileName?, hlast]
  split
  · next hup => exact absurd (Option.some.inj hup) h.up
  · next hhere => exact absurd (Option.some.inj hhere) h.here
  · rfl

theorem extension?_join_iff (directory : String) {name : String} (h : Plain name) :
    extension? (join directory name) = some "json" ↔ IsPageFileName name := by
  have hextension : extension? (join directory name)
      = (splitExtension name.toList).2.map String.ofList := by
    rw [extension?, fileName?_join directory h]
    show (splitExtension name.toList).2.bind _ = _
    cases (splitExtension name.toList).2 <;> rfl
  have hdot : '.' ∉ "json".toList := by decide
  rw [hextension, Option.map_eq_some_iff]
  constructor
  · rintro ⟨extension, hsplit, hjson⟩
    obtain ⟨stem, hstem, hname, -⟩ := splitExtension_eq_some_iff.mp hsplit
    refine ⟨stem, hstem, ?_⟩
    rw [hname, ← String.toList_ofList (l := extension), hjson]
  · rintro ⟨stem, hstem, hname⟩
    exact ⟨_, splitExtension_eq_some_iff.mpr ⟨stem, hstem, hname, hdot⟩, String.ofList_toList⟩

/-- Names are put behind the same text. -/
theorem exists_join_eq (directory : String) :
    ∃ front, ∀ name, IsName name → join directory name = front ++ name := by
  refine ⟨if directory.isEmpty || endsInSlash directory then directory else directory ++ "/",
    fun name hname => ?_⟩
  rw [join, if_neg (by simp [hname.not_isAbsolute])]
  split <;> rfl

theorem append_lt_append_iff (front name other : String) :
    front ++ name < front ++ other ↔ name < other := by
  show (front ++ name).toList < (front ++ other).toList ↔ name.toList < other.toList
  rw [String.toList_append, String.toList_append]
  induction front.toList with
  | nil => rfl
  | cons c front ih =>
    rw [List.cons_append, List.cons_append, List.cons_lt_cons_iff]
    simp [ih]

/-- Files in one directory come in the order of their names. -/
theorem join_le_join_iff (directory : String) {name other : String} (hname : IsName name)
    (hother : IsName other) : join directory name ≤ join directory other ↔ name ≤ other := by
  obtain ⟨front, hfront⟩ := exists_join_eq directory
  rw [hfront name hname, hfront other hother, ← String.not_lt, ← String.not_lt,
    append_lt_append_iff]

end Path

/-! ### Sorting -/

theorem pairwise_mergeSort_le (names : List String) :
    (names.mergeSort (· ≤ ·)).Pairwise (· ≤ ·) := by
  refine (List.pairwise_mergeSort ?_ ?_ names).imp of_decide_eq_true
  · intro a b c hab hbc
    exact decide_eq_true (String.le_trans (of_decide_eq_true hab) (of_decide_eq_true hbc))
  · intro a b
    simpa using String.le_total a b

/-- Sorting undoes every change of order. -/
theorem mergeSort_eq_of_perm {names other : List String} (h : names.Perm other) :
    names.mergeSort (· ≤ ·) = other.mergeSort (· ≤ ·) :=
  List.Perm.eq_of_pairwise (fun _ _ _ _ => String.le_antisymm) (pairwise_mergeSort_le names)
    (pairwise_mergeSort_le other)
    ((List.mergeSort_perm _ _).trans (h.trans (List.mergeSort_perm _ _).symm))

namespace Disk

variable {disk : Disk} {place : Place} {source name : String}

/-! ### Directories -/

/-- What holds of every real disk: a name is given once in a directory, and it is one
that an entry can have. -/
structure Sound (disk : Disk) : Prop where
  distinct : (disk.entries.map Prod.fst).Nodup
  component : ∀ place ∈ disk.entries.map Prod.fst, ∀ name ∈ place, Path.Component name
  fits : ∀ place ∈ disk.entries.map Prod.fst, ∀ name ∈ place, name.utf8ByteSize ≤ nameLimit

instance (disk : Disk) : Decidable disk.Sound :=
  decidable_of_iff ((disk.entries.map Prod.fst).Nodup ∧
      (∀ place ∈ disk.entries.map Prod.fst, ∀ name ∈ place, Path.Component name) ∧
      ∀ place ∈ disk.entries.map Prod.fst, ∀ name ∈ place, name.utf8ByteSize ≤ nameLimit)
    ⟨fun ⟨hdistinct, hcomponent, hfits⟩ => ⟨hdistinct, hcomponent, hfits⟩,
      fun h => ⟨h.distinct, h.component, h.fits⟩⟩

/-- The files that a source stands for. -/
inductive Denotes (disk : Disk) (source : String) : List String → Prop
  /-- A source that is no directory stands for itself. -/
  | itself (h : disk.kind? source ≠ some .directory) : Denotes disk source [source]
  /-- A directory stands for the page files directly in it whose paths can be followed, in
  the order of the bytes of their names. -/
  | directory {place : Place} {names : List String}
      (hsource : disk.findEntry source = .ok (place, .directory))
      (hsorted : names.Pairwise fun name other => Utf8.bytes name < Utf8.bytes other)
      (hnames : ∀ name, name ∈ names ↔
        (∃ content, disk.entryAt (place ++ [name]) = some (.file content)) ∧
          Path.IsPageFileName name ∧ (Path.join source name).utf8ByteSize ≤ pathLimit) :
      Denotes disk source (names.map (Path.join source))

theorem namesIn_eq (disk : Disk) (place : Place) :
    disk.namesIn place = (disk.entries.map Prod.fst).filterMap fun inner =>
      if inner.dropLast = place then inner.getLast? else none := by
  rw [namesIn, List.filterMap_map]
  rfl

theorem concat_of_getLast? {inner : Place}
    (h : (if inner.dropLast = place then inner.getLast? else none) = some name) :
    inner = place ++ [name] := by
  split_ifs at h with hplace
  obtain ⟨above, rfl⟩ := List.getLast?_eq_some_iff.mp h
  rw [← hplace, List.dropLast_concat]

theorem mem_namesIn_iff : name ∈ disk.namesIn place ↔
    place ++ [name] ∈ disk.entries.map Prod.fst := by
  rw [namesIn_eq, List.mem_filterMap]
  constructor
  · rintro ⟨inner, hinner, hname⟩
    exact concat_of_getLast? hname ▸ hinner
  · intro h
    exact ⟨_, h, by simp⟩

theorem Sound.nodup_namesIn (h : disk.Sound) (place : Place) : (disk.namesIn place).Nodup := by
  rw [namesIn_eq]
  refine h.distinct.filterMap ?_
  intro inner other name hinner hother
  rw [concat_of_getLast? hinner, concat_of_getLast? hother]

theorem mem_entries_of_entryAt {entry : DiskEntry}
    (h : disk.entryAt (place ++ [name]) = some entry) :
    place ++ [name] ∈ disk.entries.map Prod.fst := by
  rw [entryAt, if_neg (by simp)] at h
  obtain ⟨before, after, hentries, -⟩ := List.lookup_eq_some_iff.mp h
  rw [hentries]
  simp

theorem kind?_eq_directory_iff :
    disk.kind? source = some .directory ↔
      ∃ place, disk.findEntry source = .ok (place, .directory) := by
  rw [kind?]
  cases disk.findEntry source with
  | error refusal => simp [Except.toOption]
  | ok found =>
    obtain ⟨place, entry⟩ := found
    cases entry <;> simp [Except.toOption, DiskEntry.kind]

/-- A path that leads to a directory is followed to it. -/
theorem home_of_findEntry (h : disk.findEntry source = .ok (place, .directory)) :
    admits source = true ∧ disk.home source = some place := by
  have hadmits : admits source = true := by
    refine Bool.of_not_eq_false fun hnot => ?_
    obtain ⟨refusal, hrefusal, -⟩ : ∃ refusal, disk.find source = .error refusal ∧
        (source ≠ "" → refusal ≠ .notFound) := find_of_not_admits hnot
    rw [findEntry, hrefusal] at h
    cases h
  refine ⟨hadmits, walk_of_follow ?_⟩
  rw [findEntry, find_of_admits hadmits] at h
  obtain ⟨destination, hfollow, hentry⟩ := bind_eq_ok h
  rw [hfollow]
  cases destination with
  | free place => cases hentry
  | entry found entry =>
    cases entry with
    | file content =>
      dsimp only at hentry
      split_ifs at hentry
      cases hentry
    | directory =>
      cases hentry
      rfl

theorem admits_join_iff (hsource : admits source = true) (hname : Path.Component name) :
    admits (Path.join source name) = true ↔
      (Path.join source name).utf8ByteSize ≤ pathLimit := by
  have hnul : '\x00' ∉ source.toList := by
    intro hmem
    simp [admits, hmem] at hsource
  have hjoin : '\x00' ∉ (Path.join source name).toList := by
    rw [Path.join, if_neg (by simp [hname.not_isAbsolute])]
    split <;> simp [hnul, hname.nul]
  have hne : Path.join source name ≠ "" := by
    intro hempty
    have hnames := Path.names_join source hname.toIsName
    rw [hempty] at hnames
    exact List.cons_ne_nil _ _ (List.append_eq_nil_iff.mp hnames.symm).2
  simp [admits, hjoin, hne]

theorem isPageFile_join_iff (hsource : disk.findEntry source = .ok (place, .directory))
    (hname : Path.Component name) (hfits : name.utf8ByteSize ≤ nameLimit) :
    disk.isPageFile (Path.join source name) = true ↔
      (∃ content, disk.entryAt (place ++ [name]) = some (.file content)) ∧
        Path.IsPageFileName name ∧ (Path.join source name).utf8ByteSize ≤ pathLimit := by
  obtain ⟨hadmits, hhome⟩ := home_of_findEntry hsource
  have hkind : disk.kind? (Path.join source name) = some .file ↔
      (∃ content, disk.entryAt (place ++ [name]) = some (.file content)) ∧
        (Path.join source name).utf8ByteSize ≤ pathLimit := by
    rw [kind?, toOption_findEntry_join hname.toPlain, spot, hhome,
      ← admits_join_iff hadmits hname]
    by_cases hlimit : admits (Path.join source name) = true
    · rw [if_pos ⟨hlimit, hfits⟩, Option.map_some, Option.bind_some]
      cases hentry : disk.entryAt (place ++ [name]) with
      | none => simp
      | some entry => cases entry <;> simp [DiskEntry.kind, hlimit]
    · rw [if_neg fun h => hlimit h.1]
      simp [hlimit]
  rw [isPageFile, Bool.and_eq_true, beq_iff_eq, beq_iff_eq, hkind,
    Path.extension?_join_iff source hname.toPlain]
  constructor
  · rintro ⟨⟨hentry, hlimit⟩, hpage⟩
    exact ⟨hentry, hpage, hlimit⟩
  · rintro ⟨hentry, hpage, hlimit⟩
    exact ⟨⟨hentry, hlimit⟩, hpage⟩

theorem Sound.of_mem_namesIn (h : disk.Sound) (hname : name ∈ disk.namesIn place) :
    Path.Component name ∧ name.utf8ByteSize ≤ nameLimit := by
  have hentry := mem_namesIn_iff.mp hname
  exact ⟨h.component _ hentry name (by simp), h.fits _ hentry name (by simp)⟩

/-! ### The page files of a directory -/

/-- The names of the page files in a directory, as a source that leads there finds them. -/
def pageNames (disk : Disk) (source : String) (place : Place) : List String :=
  ((disk.namesIn place).filter (disk.isPageFile ∘ Path.join source)).mergeSort (· ≤ ·)

theorem perm_pageNames (disk : Disk) (source : String) (place : Place) :
    (disk.pageNames source place).Perm
      ((disk.namesIn place).filter (disk.isPageFile ∘ Path.join source)) :=
  List.mergeSort_perm _ _

/-- The paths of page files are sorted as their names are. -/
theorem pageFiles_of_directory (hdisk : disk.Sound)
    (hsource : disk.findEntry source = .ok (place, .directory)) :
    disk.pageFiles source = .ok ((disk.pageNames source place).map (Path.join source)) := by
  have hlist : disk.list source = .ok (disk.namesIn place) := by
    rw [list, hsource]
    rfl
  rw [pageFiles, if_pos (kind?_eq_directory_iff.mpr ⟨place, hsource⟩), hlist, pageNames,
    List.map_mergeSort, ← List.filter_map]
  · rfl
  · intro name hname other hother
    have hname := (hdisk.of_mem_namesIn (List.mem_filter.mp hname).1).1.toIsName
    have hother := (hdisk.of_mem_namesIn (List.mem_filter.mp hother).1).1.toIsName
    simp only [Path.join_le_join_iff source hname hother]

theorem pairwise_pageNames (hdisk : disk.Sound) :
    (disk.pageNames source place).Pairwise
      fun name other => Utf8.bytes name < Utf8.bytes other := by
  have hnodup : (disk.pageNames source place).Nodup :=
    (disk.perm_pageNames source place).nodup_iff.mpr ((hdisk.nodup_namesIn place).filter _)
  refine List.Pairwise.imp₂ ?_ (pairwise_mergeSort_le _) hnodup
  intro name other hle hne
  exact Utf8.bytes_lt (String.not_le.mp fun hge => hne (String.le_antisymm hle hge))

theorem mem_pageNames_iff (hdisk : disk.Sound)
    (hsource : disk.findEntry source = .ok (place, .directory)) :
    name ∈ disk.pageNames source place ↔
      (∃ content, disk.entryAt (place ++ [name]) = some (.file content)) ∧
        Path.IsPageFileName name ∧ (Path.join source name).utf8ByteSize ≤ pathLimit := by
  rw [(disk.perm_pageNames source place).mem_iff, List.mem_filter]
  constructor
  · rintro ⟨hname, hpage⟩
    obtain ⟨hcomponent, hfits⟩ := hdisk.of_mem_namesIn hname
    exact (isPageFile_join_iff hsource hcomponent hfits).mp hpage
  · rintro ⟨⟨content, hentry⟩, hpage⟩
    have hname := mem_namesIn_iff.mpr (mem_entries_of_entryAt hentry)
    obtain ⟨hcomponent, hfits⟩ := hdisk.of_mem_namesIn hname
    exact ⟨hname,
      (isPageFile_join_iff hsource hcomponent hfits).mpr ⟨⟨content, hentry⟩, hpage⟩⟩

/-- A source is enumerated as the files that it stands for. -/
theorem exists_denotes (hdisk : disk.Sound) (source : String) :
    ∃ files, disk.pageFiles source = .ok files ∧ disk.Denotes source files := by
  by_cases hkind : disk.kind? source = some .directory
  · obtain ⟨place, hsource⟩ := kind?_eq_directory_iff.mp hkind
    exact ⟨_, pageFiles_of_directory hdisk hsource,
      .directory hsource (pairwise_pageNames hdisk) fun name => mem_pageNames_iff hdisk hsource⟩
  · exact ⟨[source], by rw [pageFiles, if_neg hkind], .itself hkind⟩

/-- The files that sources stand for are those that are enumerated. -/
theorem exists_groups (hdisk : disk.Sound) (sources : List String) :
    ∃ groups, disk.enumerate sources = .ok groups.flatten ∧
      List.Forall₂ disk.Denotes sources groups := by
  induction sources with
  | nil => exact ⟨[], rfl, .nil⟩
  | cons source sources ih =>
    obtain ⟨files, hfiles, hdenotes⟩ := exists_denotes hdisk source
    obtain ⟨groups, hgroups, hrest⟩ := ih
    refine ⟨files :: groups, ?_, .cons hdenotes hrest⟩
    obtain ⟨others, hothers, hflatten⟩ := map_eq_ok hgroups
    rw [enumerate, List.mapM_cons, hfiles, hothers, List.flatten_cons, ← hflatten]
    rfl

theorem length_extraction (disk : Disk) (files : List String) :
    (disk.extraction files).pages.length + (disk.extraction files).failures.length
      = files.length := by
  induction files with
  | nil => rfl
  | cons file files ih =>
    rw [extraction_cons, List.length_cons, ← ih]
    cases disk.page file with
    | ok page => exact Nat.succ_add _ _
    | error failure => rfl

end Disk

/-! ### Orders of enumeration -/

/-- The orders in which a system enumerates directories, one for every time that it
enumerates one. -/
structure Enumeration where
  order : (turn : Nat) → List String → List String
  perm : ∀ turn names, (order turn names).Perm names

/-- Programs that work on a disk whose directories are enumerated in some order; the number
of directories that have been enumerated is counted. -/
def EnumeratingM (_ : Enumeration) (α : Type) : Type :=
  StateM (Nat × Disk) α

namespace EnumeratingM

variable {enumeration : Enumeration} {α : Type}

instance : Monad (EnumeratingM enumeration) :=
  inferInstanceAs (Monad (StateM (Nat × Disk)))

theorem bind_apply {β : Type} (first : EnumeratingM enumeration α)
    (second : α → EnumeratingM enumeration β) (state : Nat × Disk) :
    (first >>= second) state = second (first state).1 (first state).2 :=
  rfl

/-- An operation that enumerates no directory. -/
def lift (program : DiskM α) : EnumeratingM enumeration α :=
  fun (turn, disk) => ((program disk).1, turn, (program disk).2)

instance : FileSystem (EnumeratingM enumeration) where
  kind? path := lift (FileSystem.kind? path)
  read path := lift (FileSystem.read path)
  list path := fun (turn, disk) =>
    ((disk.list path).map (enumeration.order turn), turn + 1, disk)
  makeDirectory path := lift (FileSystem.makeDirectory path)
  stage directory content := lift (FileSystem.stage directory content)
  rename path target := lift (FileSystem.rename path target)
  write path content := lift (FileSystem.write path content)
  remove path := lift (FileSystem.remove path)
  canonical path := lift (FileSystem.canonical path)
  workingDirectory := lift FileSystem.workingDirectory

end EnumeratingM

/-- A program yields the same in whatever order directories are enumerated, and does the same
to the disk. -/
def Agrees {enumeration : Enumeration} {α : Type} (program : EnumeratingM enumeration α)
    (plain : DiskM α) : Prop :=
  ∀ turn disk, ∃ later, program (turn, disk) = ((plain disk).1, later, (plain disk).2)

section Agreement

variable {enumeration : Enumeration} {α β : Type}

theorem agrees_lift (program : DiskM α) :
    Agrees (EnumeratingM.lift program : EnumeratingM enumeration α) program :=
  fun turn _ => ⟨turn, rfl⟩

namespace Agrees

theorem pure (value : α) :
    Agrees (Pure.pure value : EnumeratingM enumeration α) (Pure.pure value) :=
  fun turn _ => ⟨turn, rfl⟩

theorem bind {first : EnumeratingM enumeration α} {plain : DiskM α}
    {second : α → EnumeratingM enumeration β} {plain' : α → DiskM β} (hfirst : Agrees first plain)
    (hsecond : ∀ value, Agrees (second value) (plain' value)) :
    Agrees (first >>= second) (plain >>= plain') := by
  intro turn disk
  obtain ⟨later, hlater⟩ := hfirst turn disk
  obtain ⟨last, hlast⟩ := hsecond (plain disk).1 later (plain disk).2
  refine ⟨last, ?_⟩
  rw [EnumeratingM.bind_apply, hlater, DiskM.bind_apply]
  exact hlast

end Agrees

theorem agrees_keepPageFiles : ∀ paths : List String,
    Agrees (keepPageFiles (m := EnumeratingM enumeration) paths) (keepPageFiles paths)
  | [] => .pure _
  | path :: paths => by
    refine Agrees.bind (Agrees.bind (agrees_lift _) fun _ => .pure _) fun isFile => ?_
    exact (agrees_keepPageFiles paths).bind fun rest => .pure _

/-- The page files of a directory are sorted, so the order of its names is lost. -/
theorem agrees_pageFiles (source : String) :
    Agrees (pageFiles (m := EnumeratingM enumeration) source) (pageFiles source) := by
  refine Agrees.bind (Agrees.bind (agrees_lift _) fun _ => .pure _) fun isDirectory => ?_
  split_ifs
  · intro turn disk
    have hlist : FileSystem.list (m := DiskM) source disk = (disk.list source, disk) := rfl
    have henumerated : FileSystem.list (m := EnumeratingM enumeration) source (turn, disk)
        = ((disk.list source).map (enumeration.order turn), turn + 1, disk) := rfl
    rw [EnumeratingM.bind_apply, henumerated, DiskM.bind_apply, hlist]
    cases disk.list source with
    | error refusal => exact ⟨turn + 1, rfl⟩
    | ok names =>
      obtain ⟨later, hlater⟩ := agrees_keepPageFiles
        ((enumeration.order turn names).map (Path.join source)) (turn + 1) disk
      refine ⟨later, ?_⟩
      dsimp only [Except.map]
      rw [EnumeratingM.bind_apply, hlater, DiskM.bind_apply, keepPageFiles_eq, keepPageFiles_eq]
      have hperm := ((enumeration.perm turn names).map (Path.join source)).filter disk.isPageFile
      rw [mergeSort_eq_of_perm hperm]
      rfl
  · exact .pure _

theorem agrees_loadPages : ∀ files : List String,
    Agrees (loadPages (m := EnumeratingM enumeration) files) (loadPages files)
  | [] => .pure _
  | file :: files => by
    have hpage : Agrees (loadPage (m := EnumeratingM enumeration) file) (loadPage file) := by
      refine (agrees_lift (FileSystem.read (m := DiskM) file)).bind fun content => ?_
      cases content <;> exact .pure _
    refine hpage.bind fun page => (agrees_loadPages files).bind fun rest => ?_
    cases page <;> exact .pure _

theorem agrees_extract : ∀ sources : List String,
    Agrees (extract (m := EnumeratingM enumeration) sources) (extract sources)
  | [] => .pure _
  | source :: sources => by
    refine (agrees_pageFiles source).bind fun files => ?_
    cases files with
    | error refusal => exact .pure _
    | ok files =>
      refine (agrees_loadPages files).bind fun first =>
        (agrees_extract sources).bind fun rest => ?_
      cases rest <;> exact .pure _

end Agreement

/-! ### Extraction -/

/-- **Extraction loses no file that a source stands for, and none twice.**  On a sound
disk the sources stand for groups of files.  Whatever the order in which directories are
enumerated, the pages are those that can be loaded from the files of all groups, and the
failures are the other files and why they cannot be loaded, both in the order of the
files.  The disk stays as it is. -/
theorem extract_complete {disk : Disk} (hdisk : disk.Sound) (sources : List String) :
    ∃ groups extraction, List.Forall₂ disk.Denotes sources groups ∧
      extraction.pages = groups.flatten.filterMap (fun file =>
        (loadPage (m := DiskM) file disk).1.toOption) ∧
      extraction.failures = groups.flatten.filterMap (fun file =>
        match (loadPage (m := DiskM) file disk).1 with
        | .ok _ => none
        | .error failure => some ⟨file, failure⟩) ∧
      extraction.pages.length + extraction.failures.length = groups.flatten.length ∧
      extract (m := DiskM) sources disk = (.ok extraction, disk) ∧
      ∀ (enumeration : Enumeration) (turn : Nat), ∃ later,
        extract (m := EnumeratingM enumeration) sources (turn, disk)
          = (.ok extraction, later, disk) := by
  obtain ⟨groups, hgroups, hdenotes⟩ := Disk.exists_groups hdisk sources
  have hextract : extract (m := DiskM) sources disk
      = (.ok (disk.extraction groups.flatten), disk) := by
    rw [extract_eq, hgroups]
    rfl
  refine ⟨groups, disk.extraction groups.flatten, hdenotes, ?_, ?_, disk.length_extraction _,
    hextract, fun enumeration turn => ?_⟩
  · simp only [loadPage_eq]
    rfl
  · simp only [loadPage_eq]
    refine List.filterMap_congr fun file _ => ?_
    rw [Disk.failure?]
    cases disk.page file <;> rfl
  · obtain ⟨later, hlater⟩ := agrees_extract sources turn disk
    exact ⟨later, by rw [hlater, hextract]⟩

/-- A directory with a page, a page file that holds no page, and entries that only look like
page files. -/
def shelfDisk : Disk where
  entries := [
    (["d"], .directory),
    (["d", "x.json"], .directory),
    (["d", "x.json", "y.json"], .file "y".toUTF8),
    (["d", "b.json"],
      .file "\x7b\"componentTree\": \x7b\"componentName\": \"Text\"\x7d\x7d".toUTF8),
    (["d", "c.JSON"], .file "c".toUTF8),
    (["d", ".json"], .file "".toUTF8),
    (["d", "a.b.json"], .file "a".toUTF8)]

theorem shelfDisk_enumerate :
    shelfDisk.enumerate ["d", "gone"] = .ok ["d/a.b.json", "d/b.json", "gone"] := by
  have hkind : shelfDisk.kind? "d" = some .directory := by decide +kernel
  have hlist : shelfDisk.list "d" = .ok ["x.json", "b.json", "c.JSON", ".json", "a.b.json"] := by
    decide +kernel
  have hfilter : (["x.json", "b.json", "c.JSON", ".json", "a.b.json"].map (Path.join "d")).filter
      shelfDisk.isPageFile = ["d/b.json", "d/a.b.json"] := by decide +kernel
  have hsort : ["d/b.json", "d/a.b.json"].mergeSort (· ≤ ·) = ["d/a.b.json", "d/b.json"] := by
    rw [mergeSort_eq_of_perm (List.Perm.swap "d/a.b.json" "d/b.json" [])]
    exact List.mergeSort_of_pairwise (by decide +kernel)
  have hfiles : shelfDisk.pageFiles "d" = .ok ["d/a.b.json", "d/b.json"] := by
    rw [Disk.pageFiles, if_pos hkind, hlist, ← hsort, ← hfilter]
    rfl
  have hgone : shelfDisk.pageFiles "gone" = .ok ["gone"] := by decide +kernel
  rw [Disk.enumerate, List.mapM_cons, hfiles, List.mapM_cons, hgone]
  rfl

/-- One page of the directory is read; the other page file is a failure, and so is a
source that is not there. -/
theorem shelfDisk_extract_complete :
    shelfDisk.Sound ∧ ∃ extraction : Extraction, extraction.pages.map (·.name) = ["b"] ∧
      extraction.failures.map (·.file) = ["d/a.b.json", "gone"] ∧
      ∀ (enumeration : Enumeration) (turn : Nat), ∃ later,
        extract (m := EnumeratingM enumeration) ["d", "gone"] (turn, shelfDisk)
          = (.ok extraction, later, shelfDisk) := by
  have hsound : shelfDisk.Sound := by decide +kernel
  obtain ⟨groups, extraction, -, -, -, -, hextract, henumerated⟩ :=
    extract_complete hsound ["d", "gone"]
  rw [extract_eq, shelfDisk_enumerate] at hextract
  obtain rfl := Except.ok.inj (congrArg Prod.fst hextract)
  exact ⟨hsound, _, by decide +kernel, by decide +kernel, henumerated⟩

/-! ### Paths that are too long -/

/-- A path to the directory `d` that stays there for some rounds. -/
def circuit (rounds : Nat) : String :=
  Path.ofSteps false ("d" :: List.replicate rounds ".")

theorem names_circuit (rounds : Nat) :
    Path.names (circuit rounds) = "d" :: List.replicate rounds "." := by
  refine Path.names_ofSteps false fun name hname => ?_
  rcases List.mem_cons.mp hname with rfl | hname
  · exact ⟨by decide, by decide⟩
  · rw [List.eq_of_mem_replicate hname]
    exact ⟨by decide, by decide⟩

theorem intercalate_replicate (first : String) : ∀ rounds : Nat,
    "/".intercalate (first :: List.replicate rounds ".")
      = first ++ String.join (List.replicate rounds "/.")
  | 0 => by simp
  | rounds + 1 => by
    have hround : "/." = "/" ++ "." := by decide
    rw [List.replicate_succ, String.intercalate_cons_cons, intercalate_replicate "." rounds,
      List.replicate_succ, String.join_cons, hround]
    simp only [String.append_assoc]

theorem circuit_eq (rounds : Nat) :
    circuit rounds = "d" ++ String.join (List.replicate rounds "/.") := by
  rw [circuit, Path.ofSteps, intercalate_replicate]
  exact String.empty_append

theorem size_circuit (rounds : Nat) : (circuit rounds).utf8ByteSize = 2 * rounds + 1 := by
  have hrounds : (String.join (List.replicate rounds "/.")).utf8ByteSize = 2 * rounds := by
    induction rounds with
    | zero => rfl
    | succ rounds ih =>
      rw [List.replicate_succ, String.join_cons, String.utf8ByteSize_append, ih]
      have hround : "/.".utf8ByteSize = 2 := rfl
      omega
  have hfirst : "d".utf8ByteSize = 1 := rfl
  rw [circuit_eq, String.utf8ByteSize_append, hrounds]
  omega

theorem mem_circuit {rounds : Nat} {c : Char} (h : c ∈ (circuit rounds).toList) :
    c = 'd' ∨ c = '/' ∨ c = '.' := by
  rw [circuit_eq, String.toList_append, List.mem_append] at h
  rcases h with h | h
  · exact .inl (List.mem_singleton.mp h)
  · right
    induction rounds with
    | zero => cases h
    | succ rounds ih =>
      rw [List.replicate_succ, String.join_cons, String.toList_append, List.mem_append] at h
      rcases h with h | h
      · simpa using h
      · exact ih h

/-- A directory with a page. -/
def farDisk : Disk where
  entries := [
    (["d"], .directory),
    (["d", "a.json"],
      .file "\x7b\"componentTree\": \x7b\"componentName\": \"Text\"\x7d\x7d".toUTF8)]

theorem farDisk_findEntry {rounds : Nat} (h : 2 * rounds + 1 ≤ Disk.pathLimit) :
    farDisk.findEntry (circuit rounds) = .ok (["d"], .directory) := by
  have hadmits : Disk.admits (circuit rounds) = true := by
    have hnul : '\x00' ∉ (circuit rounds).toList := by
      intro hmem
      rcases mem_circuit hmem with hc | hc | hc <;> exact absurd hc (by decide)
    have hne : circuit rounds ≠ "" := by
      intro hempty
      have hsize := size_circuit rounds
      rw [hempty] at hsize
      cases hsize
    simp [Disk.admits, hnul, hne, size_circuit, h]
  have horigin : farDisk.origin (circuit rounds) = [] := by
    rw [Disk.origin]
    split <;> rfl
  have hnames : ("d" :: List.replicate rounds ".").filter (· ≠ ".") = ["d"] := by simp
  have hhome : farDisk.home (circuit rounds) = some ["d"] := by
    rw [Disk.home, horigin, names_circuit, ← Disk.walk_filter, hnames]
    decide
  rw [Disk.findEntry, Disk.find_of_home hadmits hhome]
  rfl

theorem size_join_circuit (rounds : Nat) {name : String} (h : Path.IsName name) :
    2 * rounds + 1 + name.utf8ByteSize ≤ (Path.join (circuit rounds) name).utf8ByteSize := by
  rw [Path.join, if_neg (by simp [h.not_isAbsolute]), ← size_circuit]
  split
  · simp
  · rw [String.utf8ByteSize_append, String.utf8ByteSize_append]
    omega

/-- The page is the only entry of the directory, and its path is too long. -/
theorem farDisk_denotes {files : List String} (h : farDisk.Denotes (circuit 2045) files) :
    files = [] := by
  have hsource := farDisk_findEntry (by decide : 2 * 2045 + 1 ≤ Disk.pathLimit)
  cases h with
  | itself hkind => exact absurd (Disk.kind?_eq_directory_iff.mpr ⟨_, hsource⟩) hkind
  | @directory place names hplace _ hnames =>
    rw [List.map_eq_nil_iff, List.eq_nil_iff_forall_not_mem]
    intro name hname
    obtain ⟨⟨content, hentry⟩, -, hlimit⟩ := (hnames name).mp hname
    obtain rfl : place = ["d"] := by
      rw [hsource] at hplace
      exact (Prod.mk.inj (Except.ok.inj hplace)).1.symm
    obtain rfl : name = "a.json" := by
      simpa [farDisk] using Disk.mem_entries_of_entryAt hentry
    have hpage : Path.IsName "a.json" := ⟨by decide, by decide⟩
    have hsize := size_join_circuit 2045 hpage
    have hname : "a.json".utf8ByteSize = 6 := rfl
    have hbound : Disk.pathLimit = 4095 := rfl
    omega

/-- A page file is lost if the path that it would be reached by is too long. -/
theorem extract_unreachable :
    farDisk.Sound ∧ farDisk.findEntry (circuit 2045) = .ok (["d"], .directory) ∧
    (∃ content, farDisk.entryAt ["d", "a.json"] = some (.file content)) ∧
    Path.IsPageFileName "a.json" ∧
    extract (m := DiskM) [circuit 2045] farDisk = (.ok ⟨[], []⟩, farDisk) := by
  have hsound : farDisk.Sound := by decide +kernel
  refine ⟨hsound, farDisk_findEntry (by decide), ⟨_, rfl⟩, ⟨['a'], by decide, by decide⟩, ?_⟩
  obtain ⟨groups, hgroups, hdenotes⟩ := Disk.exists_groups hsound [circuit 2045]
  obtain ⟨files, rest, hfiles, hrest, rfl⟩ := List.forall₂_cons_left_iff.mp hdenotes
  rw [extract_eq, hgroups, farDisk_denotes hfiles, List.forall₂_nil_left_iff.mp hrest]
  rfl

end Pagewright
