/-
A project is generated in the same way from all of its directories.

The manifest of a project is looked for in the working directory and the
directories above it.  `Disk.Declares` says where it can be found:  in the
working directory whatever the path, and above it unless the path has more
bytes than a path may have.

* `findManifest_cases` — the search ends with the nearest of these manifests,
  and without any exactly if there is none;
* `toOption_projectManifest` — it is read with all its paths below its directory;
* `runGenerate_startingAt` — so that a run does the same from everywhere.
-/
import Mathlib.Data.List.Infix
import Pagewright.Proofs.Anchored

namespace Pagewright

open CommandLine

/-! ### Places and their paths -/

namespace Place

variable {place : Place} {name : String}

theorem isAbsolute_path (place : Place) : Path.isAbsolute place.path = true := by
  rw [path, Path.isAbsolute_append (by decide)]
  rfl

theorem isEmpty_path (place : Place) : place.path.isEmpty = false := by
  cases hcase : place.path.isEmpty with
  | false => rfl
  | true =>
    have habsolute := isAbsolute_path place
    rw [String.isEmpty_iff.mp hcase] at habsolute
    exact absurd habsolute (by decide)

theorem names_path (h : ∀ name ∈ place, Path.IsName name) : Path.names place.path = place :=
  Path.names_ofSteps true h

theorem steps_path (h : ∀ name ∈ place, Path.Plain name) : Path.steps place.path = place := by
  rw [Path.steps, names_path fun name hname => (h name hname).toIsName]
  cases place with
  | nil => rfl
  | cons first rest =>
    have hrest : rest.filter (· ≠ ".") = rest :=
      List.filter_eq_self.mpr fun name hname => by
        simpa using (h name (List.mem_cons_of_mem first hname)).here
    have hfirst : (first = "." && Path.isAbsolute (Place.path (first :: rest)) : Bool) = false := by
      simp [(h first List.mem_cons_self).here]
    dsimp only
    rw [hrest, hfirst]
    rfl

/-- The path of a name in a place. -/
theorem join_path (h : ∀ name ∈ place, Path.IsName name) (hname : Path.IsName name) :
    Path.join place.path name = Place.path (place ++ [name]) := by
  induction place using List.reverseRecOn generalizing name with
  | nil => rw [Path.join, if_neg (by simp [hname.not_isAbsolute])]; rfl
  | append_singleton above last ih =>
    have habove : Path.join (Place.path above) last = Place.path (above ++ [last]) :=
      ih (fun name hname => h name (List.mem_append_left _ hname))
        (h last (List.mem_append_right above List.mem_cons_self))
    have hslash : Path.endsInSlash (Place.path (above ++ [last])) = false :=
      habove ▸ Path.endsInSlash_join _ (h last (List.mem_append_right above List.mem_cons_self))
    have hempty := isEmpty_path (above ++ [last])
    have hplace : above ++ [last] ≠ [] := by simp
    have hcut : "/".intercalate ((above ++ [last]) ++ [name])
        = "/".intercalate (above ++ [last]) ++ "/" ++ name :=
      (String.intercalate_append_of_ne_nil hplace (List.cons_ne_nil name [])).trans
        (by rw [String.intercalate_singleton])
    rw [Path.join, if_neg (by simp [hname.not_isAbsolute]), hslash, hempty, Bool.or_self,
      if_neg Bool.false_ne_true, path, path, hcut]
    simp only [String.append_assoc]

/-- The directories above a place. -/
theorem ancestors_path (h : ∀ name ∈ place, Path.Plain name) :
    Path.ancestors place.path
      = (List.range (place.length + 1)).reverse.map fun n => Place.path (place.take n) := by
  have hupTo : Path.upTo place.path = fun n => Place.path (place.take n) := by
    funext n
    rw [Path.upTo, steps_path h, isAbsolute_path]
    rfl
  rw [Path.ancestors_eq, steps_path h, hupTo, List.range_succ, List.reverse_append,
    List.reverse_singleton, List.singleton_append, List.map_cons, List.take_length]

theorem parent?_path (h : ∀ name ∈ place, Path.Plain name) (hname : Path.Plain name) :
    Path.parent? (Place.path (place ++ [name])) = some place.path := by
  have hsteps : Path.steps (Place.path (place ++ [name])) = place ++ [name] :=
    steps_path fun other hother => by
      rcases List.mem_append.mp hother with hother | hother
      · exact h other hother
      · exact List.mem_singleton.mp hother ▸ hname
  rw [Path.parent?, hsteps, isAbsolute_path]
  cases place with
  | nil => rfl
  | cons first rest =>
    show some (Path.ofSteps true (first :: (rest ++ [name])).dropLast) = _
    rw [← List.cons_append, List.dropLast_concat]
    rfl

theorem nul_not_mem_path (h : ∀ name ∈ place, Path.Component name) :
    '\x00' ∉ place.path.toList := by
  induction place using List.reverseRecOn with
  | nil => decide
  | append_singleton above last ih =>
    have habove : ∀ name ∈ above, Path.Component name :=
      fun name hname => h name (List.mem_append_left _ hname)
    have hlast : Path.Component last := h last (List.mem_append_right above List.mem_cons_self)
    rw [← join_path (fun name hname => (habove name hname).toIsName) hlast.toIsName, Path.join,
      if_neg (by simp [hlast.not_isAbsolute])]
    split <;> simp [ih habove, hlast.nul]

end Place

/-! ### Working directories -/

theorem component_fileName : Path.Component Manifest.fileName :=
  ⟨⟨⟨by decide, by decide⟩, by decide, by decide⟩, by decide⟩

theorem plain_fileName : Path.Plain Manifest.fileName :=
  component_fileName.toPlain

namespace Disk

variable {disk : Disk} {place project : Place}

/-- A disk on which programs can work: they start from a directory. -/
structure Working (disk : Disk) : Prop where
  component : ∀ name ∈ disk.start, Path.Component name
  fits : ∀ name ∈ disk.start, name.utf8ByteSize ≤ nameLimit
  directory : ∀ place, place <+: disk.start → disk.holdsDirectory place = true

/-- Whether a directory has a manifest that can be found from the working
directory. -/
def Declares (disk : Disk) (directory : Place) : Prop :=
  (disk.entryAt (directory ++ [Manifest.fileName])).isSome ∧
    (directory = disk.start ∨
      (Place.path (directory ++ [Manifest.fileName])).utf8ByteSize ≤ pathLimit)

instance (disk : Disk) (directory : Place) : Decidable (disk.Declares directory) :=
  inferInstanceAs (Decidable (_ ∧ _))

/-- The nearest directory with some property, going upwards from a place. -/
structure Nearest (P : Place → Prop) (start directory : Place) : Prop where
  above : directory <+: start
  holds : P directory
  nearest : ∀ other, other <+: start → P other → other <+: directory

/-- The directory of the project that the working directory belongs to. -/
def IsProject (disk : Disk) (directory : Place) : Prop :=
  Nearest disk.Declares disk.start directory

theorem walk_place (h : ∀ name ∈ place, Path.Plain name)
    (hfits : ∀ name ∈ place, name.utf8ByteSize ≤ nameLimit)
    (hdirectory : ∀ above, above <+: place → disk.holdsDirectory above = true) :
    disk.walk [] place = some place := by
  induction place using List.reverseRecOn with
  | nil => rfl
  | append_singleton above name ih =>
    have hname : name ∈ above ++ [name] := List.mem_append_right above List.mem_cons_self
    have habove : disk.walk [] above = some above :=
      ih (fun other hother => h other (List.mem_append_left _ hother))
        (fun other hother => hfits other (List.mem_append_left _ hother))
        (fun other hother => hdirectory other (hother.trans (List.prefix_append above [name])))
    rw [walk_append, habove]
    show disk.walk above [name] = _
    rw [walk_cons, enter, if_neg (h name hname).here, if_neg (h name hname).up,
      if_pos ⟨hfits name hname, hdirectory _ (List.prefix_refl _)⟩]
    rfl

theorem Working.above (h : disk.Working) (hplace : place <+: disk.start) :
    (∀ name ∈ place, Path.Component name) ∧ disk.home place.path = some place := by
  have hcomponent : ∀ name ∈ place, Path.Component name :=
    fun name hname => h.component name (hplace.subset hname)
  refine ⟨hcomponent, ?_⟩
  rw [home, origin, Place.isAbsolute_path, if_pos rfl,
    Place.names_path fun name hname => (hcomponent name hname).toIsName]
  exact walk_place (fun name hname => (hcomponent name hname).toPlain)
    (fun name hname => h.fits name (hplace.subset hname))
    fun above habove => h.directory above (habove.trans hplace)

/-- The manifest of a directory is found by its path unless that is too long. -/
theorem Working.findEntry_path (h : disk.Working) (hplace : place <+: disk.start) :
    (disk.findEntry (Place.path (place ++ [Manifest.fileName]))).toOption
      = if (Place.path (place ++ [Manifest.fileName])).utf8ByteSize ≤ pathLimit then
          (disk.entryAt (place ++ [Manifest.fileName])).map (place ++ [Manifest.fileName], ·)
        else none := by
  obtain ⟨hcomponent, hhome⟩ := h.above hplace
  have hjoin : Path.join place.path Manifest.fileName
      = Place.path (place ++ [Manifest.fileName]) :=
    Place.join_path (fun name hname => (hcomponent name hname).toIsName) plain_fileName.toIsName
  have hadmits : admits (Place.path (place ++ [Manifest.fileName]))
      = decide ((Place.path (place ++ [Manifest.fileName])).utf8ByteSize ≤ pathLimit) := by
    have hnul := Place.nul_not_mem_path fun name hname => by
      rcases List.mem_append.mp hname with hname | hname
      · exact hcomponent name hname
      · exact List.mem_singleton.mp hname ▸ component_fileName
    rw [admits, Place.isEmpty_path, (by simpa using hnul : List.contains _ '\x00' = false)]
    rfl
  have hname : Manifest.fileName.utf8ByteSize ≤ nameLimit := by decide
  rw [← hjoin, toOption_findEntry_join plain_fileName, spot, hhome, hjoin, hadmits]
  simp only [decide_eq_true_eq, hname, and_true]
  split_ifs <;> rfl

/-- In the working directory it is found by its name. -/
theorem findEntry_fileName (disk : Disk) :
    (disk.findEntry Manifest.fileName).toOption
      = (disk.entryAt (disk.start ++ [Manifest.fileName])).map
          (disk.start ++ [Manifest.fileName], ·) := by
  have hspot : disk.spot "" Manifest.fileName = some (disk.start ++ [Manifest.fileName]) := by
    rw [spot, if_pos ⟨by decide, by decide⟩]
    rfl
  have hjoin : Path.join "" Manifest.fileName = Manifest.fileName := by decide
  rw [← hjoin, toOption_findEntry_join plain_fileName, hjoin, hspot]
  rfl

theorem Nearest.unique {P : Place → Prop} {start directory other : Place}
    (h : Nearest P start directory) (h' : Nearest P start other) : directory = other :=
  (h'.nearest directory h.above h.holds).eq_of_length_le
    (h.nearest other h'.above h'.holds).length_le

end Disk

/-! ### The search -/

/-- Searching numbers downwards ends with the greatest one that is looked for. -/
theorem find?_reverse_range {p : Nat → Bool} {k : Nat} : ∀ {n : Nat},
    (List.range n).reverse.find? p = some k →
      k < n ∧ p k = true ∧ ∀ m, p m = true → m < n → m ≤ k
  | 0, h => by cases h
  | n + 1, h => by
    rw [List.range_succ, List.reverse_append, List.reverse_singleton, List.singleton_append,
      List.find?_cons] at h
    cases hn : p n with
    | true =>
      rw [hn] at h
      obtain rfl : n = k := Option.some.inj h
      exact ⟨Nat.lt_succ_self n, hn, fun m _ hm => Nat.le_of_lt_succ hm⟩
    | false =>
      rw [hn] at h
      obtain ⟨hk, hpk, hgreatest⟩ := find?_reverse_range h
      refine ⟨Nat.lt_succ_of_lt hk, hpk, fun m hpm hm => hgreatest m hpm ?_⟩
      rcases Nat.lt_succ_iff_lt_or_eq.mp hm with hm | rfl
      · exact hm
      · rw [hn] at hpm
        cases hpm

section Search

variable {disk : Disk} (h : disk.Working)

include h

theorem searchManifest_eq :
    searchManifest (m := DiskM) disk
      = (.ok (((List.range (disk.start.length + 1)).reverse.find? fun n =>
          (disk.kind? (Place.path (disk.start.take n ++ [Manifest.fileName]))).isSome).map fun n =>
            Place.path (disk.start.take n ++ [Manifest.fileName])), disk) := by
  have hcandidates : (Path.ancestors disk.start.path).map (Path.join · Manifest.fileName)
      = (List.range (disk.start.length + 1)).reverse.map fun n =>
        Place.path (disk.start.take n ++ [Manifest.fileName]) := by
    rw [Place.ancestors_path fun name hname => (h.component name hname).toPlain, List.map_map]
    refine List.map_congr_left fun n _ => ?_
    exact Place.join_path (fun name hname =>
      (h.component name (List.mem_of_mem_take hname)).toIsName) plain_fileName.toIsName
  have hdirectory : FileSystem.workingDirectory (m := DiskM) disk
      = (.ok disk.start.path, disk) := rfl
  rw [searchManifest, DiskM.bind_apply, hdirectory]
  dsimp only
  rw [hcandidates, DiskM.bind_apply, firstExisting_eq, List.find?_map]
  rfl

/-- Above the working directory, a manifest can be found if its path leads to it. -/
theorem declares_iff (hhere : disk.entryAt (disk.start ++ [Manifest.fileName]) = none)
    {place : Place} (hplace : place <+: disk.start) :
    disk.Declares place ↔
      (disk.kind? (Place.path (place ++ [Manifest.fileName]))).isSome = true := by
  rw [Disk.kind?, Option.isSome_map, h.findEntry_path hplace, Disk.Declares]
  constructor
  · rintro ⟨hentry, rfl | hfits⟩
    · rw [hhere] at hentry
      cases hentry
    · rwa [if_pos hfits, Option.isSome_map]
  · intro hfound
    split_ifs at hfound with hfits
    · exact ⟨by rwa [Option.isSome_map] at hfound, .inr hfits⟩
    · cases hfound

/-- The search for a manifest ends, and it ends with that of the project. -/
theorem findManifest_cases :
    (∀ directory, directory <+: disk.start → ¬disk.Declares directory) ∧
      (findManifest (m := DiskM) Manifest.fileName disk).1 = .ok none ∨
    ∃ directory path entry, disk.IsProject directory ∧
      disk.entryAt (directory ++ [Manifest.fileName]) = some entry ∧
      disk.findEntry path = .ok (directory ++ [Manifest.fileName], entry) ∧
      (findManifest (m := DiskM) Manifest.fileName disk).1 = .ok (some path) := by
  have hexists : FileSystem.pathExists (m := DiskM) Manifest.fileName disk
      = ((disk.kind? Manifest.fileName).isSome, disk) := rfl
  rw [findManifest, DiskM.bind_apply, hexists, Disk.kind?, Option.isSome_map,
    Disk.findEntry_fileName, Option.isSome_map]
  cases hhere : disk.entryAt (disk.start ++ [Manifest.fileName]) with
  | some entry =>
    -- The working directory is the project itself.
    refine .inr ⟨disk.start, Manifest.fileName, entry, ⟨List.prefix_refl _, ⟨?_, .inl rfl⟩,
      fun other hother _ => hother⟩, hhere, eq_ok_of_toOption ?_, rfl⟩
    · rw [hhere]
      rfl
    · rw [Disk.findEntry_fileName, hhere]
      rfl
  | none =>
    rw [Option.isSome_none, if_neg Bool.false_ne_true, if_pos rfl, searchManifest_eq h]
    have htake (directory : Place) (hdirectory : directory <+: disk.start) :
        directory = disk.start.take directory.length :=
      List.prefix_iff_eq_take.mp hdirectory
    cases hfind : (List.range (disk.start.length + 1)).reverse.find? fun n =>
        (disk.kind? (Place.path (disk.start.take n ++ [Manifest.fileName]))).isSome with
    | none =>
      refine .inl ⟨fun directory hdirectory hdeclares => ?_, rfl⟩
      have hlength : directory.length ∈ (List.range (disk.start.length + 1)).reverse :=
        List.mem_reverse.mpr (List.mem_range.mpr (Nat.lt_succ_of_le hdirectory.length_le))
      refine List.find?_eq_none.mp hfind directory.length hlength ?_
      rw [← htake directory hdirectory]
      exact (declares_iff h hhere hdirectory).mp hdeclares
    | some n =>
      obtain ⟨-, hfound, hgreatest⟩ := find?_reverse_range hfind
      have habove : disk.start.take n <+: disk.start := List.take_prefix n disk.start
      have hdeclares := (declares_iff h hhere habove).mpr hfound
      have hnearest (other : Place) (hother : other <+: disk.start)
          (hdeclares : disk.Declares other) : other <+: disk.start.take n := by
        rw [htake other hother]
        refine List.take_prefix_take_left (hgreatest other.length ?_ ?_)
        · rw [← htake other hother]
          exact (declares_iff h hhere hother).mp hdeclares
        · exact Nat.lt_succ_of_le hother.length_le
      have hfits : (disk.findEntry (Place.path (disk.start.take n ++ [Manifest.fileName]))).toOption
          = (disk.entryAt (disk.start.take n ++ [Manifest.fileName])).map
            (disk.start.take n ++ [Manifest.fileName], ·) := by
        rw [h.findEntry_path habove]
        rw [Disk.kind?, Option.isSome_map, h.findEntry_path habove] at hfound
        split_ifs at hfound ⊢
        · rfl
        · cases hfound
      obtain ⟨entry, hentry⟩ := Option.isSome_iff_exists.mp hdeclares.1
      rw [hentry] at hfits
      exact .inr ⟨disk.start.take n, _, entry, ⟨habove, hdeclares, hnearest⟩,
        hentry, eq_ok_of_toOption hfits, rfl⟩

end Search

/-! ### The manifest -/

/-- The manifest in a directory, with its paths placed below the directory. -/
def Disk.manifest? (disk : Disk) (directory : Place) : Option Manifest :=
  match disk.entryAt (directory ++ [Manifest.fileName]) with
  | some (.file content) =>
    (valueOfContent Manifest.reader content).toOption.map (·.resolve directory.path)
  | _ => none

theorem manifest?_startingAt (disk : Disk) (start directory : Place) :
    (disk.startingAt start).manifest? directory = disk.manifest? directory := by
  have hentry : (disk.startingAt start).entryAt (directory ++ [Manifest.fileName])
      = disk.entryAt (directory ++ [Manifest.fileName]) := rfl
  rw [Disk.manifest?, Disk.manifest?, hentry]

theorem toOption_loadManifest {disk : Disk} {directory : Place} {path : String}
    {entry : DiskEntry} (hplain : ∀ name ∈ directory, Path.Plain name)
    (hentry : disk.entryAt (directory ++ [Manifest.fileName]) = some entry)
    (hfind : disk.findEntry path = .ok (directory ++ [Manifest.fileName], entry)) :
    (loadManifest (m := DiskM) path disk).1.toOption = disk.manifest? directory := by
  have hcanonical : FileSystem.canonical (m := DiskM) path disk
      = (.ok (Place.path (directory ++ [Manifest.fileName])), disk) := by
    show ((disk.findEntry path).map (·.1.path), disk) = _
    rw [hfind]
    rfl
  rw [loadManifest, DiskM.bind_apply, Disk.manifest?, hentry]
  cases entry with
  | directory =>
    rw [loadDocument_of_directory hfind]
    rfl
  | file content =>
    rw [loadDocument_of_file hfind]
    dsimp only
    cases valueOfContent Manifest.reader content with
    | error error => rfl
    | ok manifest =>
      dsimp only
      rw [DiskM.bind_apply, hcanonical]
      dsimp only
      rw [Place.parent?_path hplain plain_fileName]
      rfl

/-- The manifest of a project is read with all its paths below its directory. -/
theorem toOption_projectManifest {disk : Disk} {project : Place} (h : disk.Working)
    (hproject : disk.IsProject project) :
    (projectManifest (m := DiskM) Manifest.fileName disk).1.toOption
      = (disk.manifest? project).map some := by
  rw [projectManifest, DiskM.bind_apply, readOnly_findManifest]
  obtain ⟨hnone, -⟩ | ⟨directory, path, entry, hdirectory, hentry, hfind, hfound⟩ :=
    findManifest_cases h
  · exact absurd hproject.holds (hnone project hproject.above)
  · obtain rfl : directory = project := hdirectory.unique hproject
    have hplain : ∀ name ∈ directory, Path.Plain name :=
      fun name hname => ((h.above hproject.above).1 name hname).toPlain
    rw [hfound, ← toOption_loadManifest hplain hentry hfind]
    dsimp only
    rw [DiskM.bind_apply]
    cases (loadManifest (m := DiskM) path disk).1 <;> rfl

/-! ### Running -/

/-- The paths of a manifest lead from the root once they are placed below a directory. -/
theorem isAbsolute_of_manifest? {disk : Disk} {directory : Place} {manifest : Manifest}
    (h : disk.manifest? directory = some manifest) :
    (∀ page ∈ manifest.pages, Path.isAbsolute page = true) ∧
    Path.isAbsolute manifest.output = true ∧
    ∀ table, manifest.table? = some table → Path.isAbsolute table = true := by
  have hbelow := Path.isAbsolute_join_of_isAbsolute (Place.isAbsolute_path directory)
  rw [Disk.manifest?] at h
  split at h
  · obtain ⟨declared, -, rfl⟩ := Option.map_eq_some_iff.mp h
    refine ⟨fun page hpage => ?_, hbelow declared.output, fun table htable => ?_⟩
    · obtain ⟨source, -, rfl⟩ := List.mem_map.mp hpage
      exact hbelow source
    · obtain ⟨path, -, rfl⟩ := Option.map_eq_some_iff.mp htable
      exact hbelow path
  · cases h

theorem anchored_jobWith {manifest : Manifest}
    (hpages : ∀ page ∈ manifest.pages, Path.isAbsolute page = true)
    (htable : ∀ table, manifest.table? = some table → Path.isAbsolute table = true) :
    Anchored (jobWith {} (some manifest)) := by
  refine (anchored_firstMissing hpages).bind fun missing => ?_
  cases missing with
  | some source => exact .pure _
  | none =>
    refine (anchored_activeRegistry htable).bind fun registry => ?_
    cases registry <;> exact .pure _

/-- Runs that resolve the same job do the same, if the job does. -/
theorem runGenerate_startingAt_of_job {options : GenerateOptions} {dryRun : Bool} {disk : Disk}
    {start : Place} (hsame : (resolveJob (m := DiskM) options (disk.startingAt start)).1
      = (resolveJob (m := DiskM) options disk).1)
    (hrun : ∀ job, (resolveJob (m := DiskM) options disk).1 = .ok job →
      Anchored (runJob (m := DiskM) job dryRun)) :
    runGenerate (m := DiskM) options dryRun (disk.startingAt start)
      = ((runGenerate (m := DiskM) options dryRun disk).1,
        (runGenerate (m := DiskM) options dryRun disk).2.startingAt start) := by
  cases hresolved : (resolveJob (m := DiskM) options disk).1 with
  | error abort =>
    rw [runGenerate_of_abort dryRun hresolved,
      runGenerate_of_abort dryRun (hsame.trans hresolved)]
  | ok job =>
    rw [runGenerate_of_job dryRun hresolved, runGenerate_of_job dryRun (hsame.trans hresolved)]
    exact hrun job hresolved disk start

/-- From two directories of a project, a run does the same. -/
theorem runGenerate_startingAt {disk : Disk} {start project : Place} (h : disk.Working)
    (h' : (disk.startingAt start).Working) (hproject : disk.IsProject project)
    (hproject' : (disk.startingAt start).IsProject project) :
    (runGenerate (m := DiskM) {} false (disk.startingAt start)).1.code
        = (runGenerate (m := DiskM) {} false disk).1.code ∧
      (runGenerate (m := DiskM) {} false (disk.startingAt start)).1.output
        = (runGenerate (m := DiskM) {} false disk).1.output ∧
      (runGenerate (m := DiskM) {} false (disk.startingAt start)).2
        = (runGenerate (m := DiskM) {} false disk).2.startingAt start := by
  have hmanifest := toOption_projectManifest h hproject
  have hmanifest' := toOption_projectManifest h' hproject'
  have hsame := manifest?_startingAt disk start project
  rw [hsame] at hmanifest'
  cases hdeclared : disk.manifest? project with
  | none =>
    -- Both runs end with an error, in which only the path of the manifest differs
    rw [hdeclared] at hmanifest hmanifest'
    obtain ⟨abort, habort⟩ := exists_error_of_toOption hmanifest
    obtain ⟨abort', habort'⟩ := exists_error_of_toOption hmanifest'
    have hjob : (resolveJob (m := DiskM) {} disk) = (.error abort, disk) :=
      resolveJob_of_abort habort
    have hjob' : (resolveJob (m := DiskM) {} (disk.startingAt start))
        = (.error abort', disk.startingAt start) := resolveJob_of_abort habort'
    rw [runGenerate_of_abort false (congrArg Prod.fst hjob),
      runGenerate_of_abort false (congrArg Prod.fst hjob')]
    exact ⟨rfl, rfl, rfl⟩
  | some manifest =>
    rw [hdeclared] at hmanifest hmanifest'
    obtain ⟨hpages, houtput, htable⟩ := isAbsolute_of_manifest? hdeclared
    have hwith : resolveJob (m := DiskM) {} disk = jobWith {} (some manifest) disk :=
      resolveJob_of_manifest (eq_ok_of_toOption hmanifest)
    have hwith' : resolveJob (m := DiskM) {} (disk.startingAt start)
        = jobWith {} (some manifest) (disk.startingAt start) :=
      resolveJob_of_manifest (eq_ok_of_toOption hmanifest')
    have hjob : (resolveJob (m := DiskM) {} (disk.startingAt start)).1
        = (resolveJob (m := DiskM) {} disk).1 := by
      rw [hwith, hwith', anchored_jobWith hpages htable disk start]
    have hrun (job : Job) (hresolved : (resolveJob (m := DiskM) {} disk).1 = .ok job) :
        Anchored (runJob (m := DiskM) job false) := by
      obtain ⟨manifest?, registry, hloaded, -, -, rfl⟩ :=
        (resolveJob_eq_ok_iff {} disk job).mp hresolved
      have hmanifest? : (projectManifest (m := DiskM) Manifest.fileName disk).1 = .ok manifest? :=
        hloaded
      obtain rfl : some manifest = manifest? :=
        Except.ok.inj ((eq_ok_of_toOption hmanifest).symm.trans hmanifest?)
      exact anchored_runJob false hpages houtput
    rw [runGenerate_startingAt_of_job hjob hrun]
    exact ⟨rfl, rfl, rfl⟩

/-- **A project is generated in the same way from all of its directories.**
The search for its manifest ends with the manifest of the nearest directory
that declares one, and with none exactly if no directory on the way up does.
From any two working directories of a project, a run has the same exit code,
prints the same, and leaves the same files and directories. -/
theorem generate_same_in_project {disk other : Disk} (h : disk.Working) (h' : other.Working)
    (hentries : other.entries = disk.entries) :
    ((findManifest (m := DiskM) Manifest.fileName disk).1 = .ok none ↔
      ∀ directory, directory <+: disk.start → ¬disk.Declares directory) ∧
    ∀ project, disk.IsProject project →
      (∃ path entry, (findManifest (m := DiskM) Manifest.fileName disk).1 = .ok (some path) ∧
        disk.findEntry path = .ok (project ++ [Manifest.fileName], entry)) ∧
      (projectManifest (m := DiskM) Manifest.fileName disk).1.toOption
        = (disk.manifest? project).map some ∧
      (other.IsProject project →
        (run (m := DiskM) ["generate"] other).1.code
            = (run (m := DiskM) ["generate"] disk).1.code ∧
          (run (m := DiskM) ["generate"] other).1.output
            = (run (m := DiskM) ["generate"] disk).1.output ∧
          (run (m := DiskM) ["generate"] other).2.entries
            = (run (m := DiskM) ["generate"] disk).2.entries) := by
  refine ⟨?_, fun project hproject => ⟨?_, toOption_projectManifest h hproject, ?_⟩⟩
  · obtain ⟨hnone, hfound⟩ | ⟨directory, path, entry, hdirectory, -, -, hfound⟩ :=
      findManifest_cases h
    · exact ⟨fun _ => hnone, fun _ => hfound⟩
    · rw [hfound]
      constructor
      · intro hnone
        cases hnone
      · exact fun hnone => absurd hdirectory.holds (hnone directory hdirectory.above)
  · obtain ⟨hnone, -⟩ | ⟨directory, path, entry, hdirectory, -, hfind, hfound⟩ :=
      findManifest_cases h
    · exact absurd hproject.holds (hnone project hproject.above)
    · obtain rfl : directory = project := hdirectory.unique hproject
      exact ⟨path, entry, hfound, hfind⟩
  · intro hproject'
    obtain ⟨start, rfl⟩ : ∃ start, other = disk.startingAt start :=
      ⟨other.start, by rw [Disk.startingAt, ← hentries]⟩
    have hparse : Invocation.parse ["generate"] = .run (.generate {} false) := by decide
    obtain ⟨hcode, houtput, hdisk⟩ := runGenerate_startingAt h h' hproject hproject'
    rw [run_of_parse false hparse, hdisk]
    exact ⟨hcode, houtput, rfl⟩

/-! ### Paths that are too long -/

/-- A directory so far from the root that a manifest in it cannot be found
from below, because its path is too long. -/
def deepName : String :=
  String.ofList (List.replicate 226 'd')

def deepPlace : Place :=
  List.replicate 18 deepName

def deepDisk : Disk where
  entries := [
      (["pagegen.json"], .file
        "\x7b\"name\": \"top\", \"pages\": [\"p\"], \"outputDir\": \"o\"\x7d".toUTF8),
      (["p"], .file
        "\x7b\"pageInfo\": \x7b\x7d, \"componentTree\": \x7b\"componentName\": \"Text\"\x7d\x7d".toUTF8)]
    ++ (List.range 18).map (fun n => (deepPlace.take (n + 1), .directory))
    ++ [(deepPlace ++ ["s"], .directory), (deepPlace ++ ["pagegen.json"], .directory)]
  start := deepPlace

theorem component_deepName : Path.Component deepName := by
  have hchars : deepName.toList = List.replicate 226 'd' := String.toList_ofList
  refine ⟨⟨⟨?_, ?_⟩, ?_, ?_⟩, ?_⟩
  · rw [hchars]
    decide
  · rw [hchars]
    exact fun hmem => absurd (List.eq_of_mem_replicate hmem) (by decide)
  · decide +kernel
  · decide +kernel
  · rw [hchars]
    exact fun hmem => absurd (List.eq_of_mem_replicate hmem) (by decide)

theorem deepDisk_working {start : Place} (h : start <+: deepPlace ++ ["s"]) :
    (deepDisk.startingAt start).Working := by
  have hname (name : String) (hmem : name ∈ start) : name = deepName ∨ name = "s" := by
    rcases List.mem_append.mp (h.subset hmem) with hmem | hmem
    · exact .inl (List.eq_of_mem_replicate hmem)
    · exact .inr (List.mem_singleton.mp hmem)
  have hdirectory : ∀ place ∈ (deepPlace ++ ["s"]).inits,
      deepDisk.holdsDirectory place = true := by decide +kernel
  constructor
  case component =>
    intro name hmem
    rcases hname name hmem with rfl | rfl
    · exact component_deepName
    · exact ⟨⟨⟨by decide, by decide⟩, by decide, by decide⟩, by decide⟩
  case fits =>
    intro name hmem
    rcases hname name hmem with rfl | rfl <;> decide +kernel
  case directory =>
    exact fun place hplace => hdirectory place ((List.mem_inits _ _).mpr (hplace.trans h))

theorem deepDisk_isProject_root : (deepDisk.startingAt []).IsProject [] :=
  ⟨List.nil_prefix, by decide +kernel, fun _ hother _ => hother⟩

/-- From below, only the manifest of the root can be found. -/
theorem deepDisk_isProject_below :
    (deepDisk.startingAt (deepPlace ++ ["s"])).IsProject [] := by
  have hnearest : ∀ other ∈ (deepPlace ++ ["s"]).inits,
      (deepDisk.startingAt (deepPlace ++ ["s"])).Declares other → other <+: [] := by
    decide +kernel
  exact ⟨List.nil_prefix, by decide +kernel,
    fun other hother => hnearest other ((List.mem_inits _ _).mpr hother)⟩

theorem deepDisk_isProject : deepDisk.IsProject deepPlace :=
  ⟨List.prefix_refl _, by decide +kernel, fun _ hother _ => hother⟩

/-- From below, the run is that of the root. -/
theorem deepDisk_same_in_project :
    (run (m := DiskM) ["generate"] (deepDisk.startingAt (deepPlace ++ ["s"]))).1.output
      = (run (m := DiskM) ["generate"] (deepDisk.startingAt [])).1.output := by
  obtain ⟨-, hproject⟩ := generate_same_in_project
    (deepDisk_working List.nil_prefix) (deepDisk_working (List.prefix_refl _)) rfl
  exact ((hproject [] deepDisk_isProject_root).2.2 deepDisk_isProject_below).2.1

/-- The deep directory holds a manifest that cannot be read. -/
theorem deepDisk_code : (runGenerate (m := DiskM) {} false deepDisk).1.code = 1 := by
  have hworking : deepDisk.Working := deepDisk_working (List.prefix_append deepPlace ["s"])
  have hnone : deepDisk.manifest? deepPlace = none := by decide +kernel
  have hmanifest := toOption_projectManifest hworking deepDisk_isProject
  rw [hnone] at hmanifest
  obtain ⟨abort, habort⟩ := exists_error_of_toOption hmanifest
  have hjob : resolveJob (m := DiskM) {} deepDisk = (.error abort, deepDisk) :=
    resolveJob_of_abort habort
  rw [runGenerate_of_abort false (congrArg Prod.fst hjob)]
  rfl

theorem deepDisk_code_below :
    (runGenerate (m := DiskM) {} false (deepDisk.startingAt (deepPlace ++ ["s"]))).1.code = 0 := by
  have hroot : (runGenerate (m := DiskM) {} false (deepDisk.startingAt [])).1.code = 0 := by
    decide +kernel
  have hbelow : ((deepDisk.startingAt []).startingAt (deepPlace ++ ["s"])).Working :=
    deepDisk_working (List.prefix_refl _)
  obtain ⟨hcode, -⟩ := runGenerate_startingAt (deepDisk_working List.nil_prefix) hbelow
    deepDisk_isProject_root deepDisk_isProject_below
  rw [Disk.startingAt_startingAt] at hcode
  rw [hcode, hroot]

/-- It does not do to look at the entries alone:  the deep directory is the
nearest one with an entry of the name of a manifest, in itself and from below. -/
theorem deepDisk_not_same :
    ¬∀ (disk other : Disk) (project : Place), disk.Working → other.Working →
      other.entries = disk.entries →
      Disk.Nearest (fun directory => (disk.entryAt (directory ++ [Manifest.fileName])).isSome)
        disk.start project →
      Disk.Nearest (fun directory => (other.entryAt (directory ++ [Manifest.fileName])).isSome)
        other.start project →
      (run (m := DiskM) ["generate"] other).1.code
          = (run (m := DiskM) ["generate"] disk).1.code ∧
        (run (m := DiskM) ["generate"] other).1.output
          = (run (m := DiskM) ["generate"] disk).1.output ∧
        (run (m := DiskM) ["generate"] other).2.entries
          = (run (m := DiskM) ["generate"] disk).2.entries := by
  intro h
  have hparse : Invocation.parse ["generate"] = .run (.generate {} false) := by decide
  have hnearest : ∀ other ∈ (deepPlace ++ ["s"]).inits,
      (deepDisk.entryAt (other ++ [Manifest.fileName])).isSome → other <+: deepPlace := by
    decide +kernel
  have hentry := deepDisk_isProject.holds.1
  have hcode := (h deepDisk (deepDisk.startingAt (deepPlace ++ ["s"])) deepPlace
    (deepDisk_working (List.prefix_append _ _)) (deepDisk_working (List.prefix_refl _)) rfl
    ⟨List.prefix_refl _, hentry, fun _ hother _ => hother⟩
    ⟨List.prefix_append _ _, hentry,
      fun other hother => hnearest other ((List.mem_inits _ _).mpr hother)⟩).1
  rw [run_of_parse false hparse, deepDisk_code, deepDisk_code_below] at hcode
  cases hcode

end Pagewright
