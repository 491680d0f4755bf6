/-
What is left of a page that could not be generated.

The output directory is made before anything can go wrong with the files in it,
and it is not removed again.

* `Disk.pairwise_behind` — while one ancestor of a path is free, nothing is found
  behind it;
* `makeDirectories_gained_iff` — so the search for the outermost directory to be made
  gets there, and makes it;
* `generate_gained_iff` — when directories are left behind.
-/
import Mathlib.Data.String.Basic
import Pagewright.Proofs.Generation

namespace Pagewright

namespace Disk

variable {disk other final : Disk} {path above output : String} {place reached : Place}
  {names names' rest : List String}

/-- A directory that is on a disk and was not on another one. -/
structure Gained (disk final : Disk) (place : Place) : Prop where
  missing : disk.entryAt place = none
  made : final.entryAt place = some .directory

theorem Same.gained_iff (h : Same other final) (place : Place) :
    Gained disk final place ↔ Gained disk other place := by
  constructor
  · exact fun ⟨hmissing, hmade⟩ => ⟨hmissing, h.entryAt place ▸ hmade⟩
  · exact fun ⟨hmissing, hmade⟩ => ⟨hmissing, (h.entryAt place).trans hmade⟩

/-! ### Behind a free name -/

/-- Nothing is found behind a name that is free, however often one stays in place
on the way. -/
theorem follow_of_free (h : disk.follow place names = .ok (.free reached))
    (hfilter : names'.filter (· ≠ ".") = names.filter (· ≠ ".")) (hrest : rest ≠ []) :
    disk.follow place (names' ++ rest) = .error .notFound := by
  obtain ⟨before, name, inner, rfl, rfl, hbefore, hhere, hup, hfits, hnone⟩ := exists_of_free h
  -- The other names lead to the same directory, then through the free name.
  rw [List.filter_append, List.filter_cons_of_pos (by simpa using hhere), List.filter_nil,
    List.filter_eq_append_iff] at hfilter
  obtain ⟨before', last, rfl, hbefore', hlast⟩ := hfilter
  obtain ⟨dots, dots', rfl, hdots, -, -⟩ := List.filter_eq_cons_iff.mp hlast
  have hwalk : disk.walk place (before' ++ dots) = some inner := by
    have hnil : dots.filter (· ≠ ".") = [] := List.filter_eq_nil_iff.mpr hdots
    rw [← walk_filter, List.filter_append, hnil, List.append_nil, hbefore', walk_filter, hbefore]
  have hmore : dots' ++ rest ≠ [] := List.append_ne_nil_of_right_ne_nil _ hrest
  rw [← List.append_assoc, List.append_assoc, List.cons_append, follow_append _ hwalk,
    follow_plain _ hhere hup hfits, hnone]
  exact if_neg (by simpa using hmore)

/-- A path at which nothing is found while another one is free. -/
structure Behind (path above : String) : Prop where
  nonempty : path ≠ ""
  find : ∀ (disk : Disk) (place : Place), disk.find above = .ok (.free place) →
    admits path = true → disk.find path = .error .notFound

theorem behind_upTo (path : String) {n : Nat} (hn : n < (Path.steps path).length) :
    Behind path (Path.upTo path n) := by
  obtain ⟨k, hk, heq⟩ := exists_take_of_sublist (Path.steps_sublist path) (Path.filter_steps path)
    n hn
  constructor
  case nonempty => exact Path.ne_empty_of_names (List.ne_nil_of_length_pos (Nat.zero_lt_of_lt hk))
  case find =>
    intro disk place hfind hpath
    have hrest : (Path.names path).drop k ≠ [] := by
      rw [← List.length_pos_iff, List.length_drop]
      omega
    rw [find_of_admits (admits_of_find hfind), origin, Path.isAbsolute_upTo, Path.names_upTo,
      ← origin] at hfind
    have hnothing := follow_of_free hfind heq.symm hrest
    rwa [List.take_append_drop, ← find_of_admits hpath] at hnothing

theorem upTo_behind_upTo (path : String) {n m : Nat} (hn : n < m)
    (hm : m < (Path.steps path).length) : Behind (Path.upTo path m) (Path.upTo path n) := by
  have hrest : ((Path.steps path).take m).drop n ≠ [] := by
    rw [← List.length_pos_iff, List.length_drop, List.length_take]
    omega
  constructor
  case nonempty =>
    refine Path.ne_empty_of_names fun hnil => hrest ?_
    rw [Path.names_upTo] at hnil
    rw [hnil, List.drop_nil]
  case find =>
    intro disk place hfind hpath
    rw [find_of_admits (admits_of_find hfind), origin, Path.isAbsolute_upTo, Path.names_upTo,
      ← origin] at hfind
    have hnothing := follow_of_free hfind rfl hrest
    have htake : (Path.steps path).take n = ((Path.steps path).take m).take n := by
      rw [List.take_take, Nat.min_eq_left hn.le]
    rw [htake, List.take_append_drop] at hnothing
    rw [find_of_admits hpath, origin, Path.isAbsolute_upTo, Path.names_upTo, ← origin, hnothing]

/-- While an ancestor of a path is free, nothing is found at those before it. -/
theorem pairwise_behind (path : String) : (Path.ancestors path).Pairwise Behind :=
  pairwise_ancestors_of (fun _ => behind_upTo path) fun _ _ => upTo_behind_upTo path

/-- The ancestors of a path that is followed are followed. -/
theorem admits_of_mem_ancestors (hpath : admits path = true) (habove : above ∈ Path.ancestors path)
    (hne : above ≠ "") : admits above = true := by
  have hsublist : above.toList.Sublist path.toList := by
    rw [Path.ancestors_eq] at habove
    rcases List.mem_cons.mp habove with rfl | habove
    · exact List.Sublist.refl _
    · obtain ⟨n, -, rfl⟩ := List.mem_map.mp habove
      exact Path.upTo_sublist path n
  have hsize := String.utf8Len_le_of_sublist hsublist
  rw [← String.utf8ByteSize_ofList, ← String.utf8ByteSize_ofList, String.ofList_toList,
    String.ofList_toList] at hsize
  simp only [admits, Bool.and_eq_true, Bool.not_eq_true', List.contains_eq_mem,
    decide_eq_false_iff_not, decide_eq_true_eq] at hpath ⊢
  refine ⟨⟨by simpa using hne, fun hnul => hpath.1.2 (hsublist.subset hnul)⟩, by omega⟩

end Disk

open Disk

variable {disk final : Disk} {path above output : String} {place : Place}
  {inside inner outer paths : List String}

/-! ### Making directories -/

theorem makeOutermost_append (outer : List String) : ∀ {inner : List String},
    (∀ path ∈ inner, disk.find path = .error .notFound ∧ path ≠ "") → ∀ inside,
      makeOutermost (m := DiskM) inside (inner ++ outer) disk
        = makeOutermost (m := DiskM) (inner.reverse ++ inside) outer disk
  | [], _, _ => rfl
  | path :: inner, h, inside => by
    rw [List.forall_mem_cons] at h
    rw [List.cons_append, makeOutermost_of_notFound h.1.1 h.1.2, makeOutermost_append outer h.2,
      List.reverse_cons, List.append_assoc, List.singleton_append]

/-- A free name on the way to an output directory is made, whatever happens then. -/
theorem gained_of_free (houtput : admits output = true) (habove : above ∈ Path.ancestors output)
    (hfree : disk.find above = .ok (.free place)) :
    Gained disk (makeDirectories (m := DiskM) output disk).2 place := by
  obtain ⟨inner, outer, hsplit⟩ := List.append_of_mem habove
  have hbehind : ∀ path ∈ inner, Behind path above := by
    have hpairwise := pairwise_behind output
    rw [hsplit, List.pairwise_append] at hpairwise
    exact fun path hpath => hpairwise.2.2 path hpath above List.mem_cons_self
  -- The search goes past all that is further in.
  have hinner : ∀ path ∈ inner, disk.find path = .error .notFound ∧ path ≠ "" := by
    intro path hpath
    have hne := (hbehind path hpath).nonempty
    have hmem : path ∈ Path.ancestors output := hsplit ▸ List.mem_append_left _ hpath
    have hadmits := admits_of_mem_ancestors houtput hmem hne
    exact ⟨(hbehind path hpath).find disk place hfree hadmits, hne⟩
  have houtermost : makeOutermost (m := DiskM) [] (Path.ancestors output) disk
      = (.ok (inner.reverse ++ []), disk.put place .directory) := by
    rw [hsplit, makeOutermost_append _ hinner, makeOutermost_of_free hfree]
  rw [makeDirectories_eq_of_ok houtermost]
  have hmissing := hfree
  rw [find_of_admits (admits_of_find hfree)] at hmissing
  obtain ⟨hnone, hne, -⟩ := walk_put_of_free hmissing
  have hput : (disk.put place .directory).entryAt place = some .directory := by
    rw [entryAt_put hne, if_pos rfl]
  exact ⟨hnone, (makeEach_spec _ _).1.untouched.directory place hput⟩

theorem makeOutermost_of_none_free
    (hnone : ∀ path ∈ outer, ∀ place, disk.find path ≠ .ok (.free place)) (inside : List String) :
    (makeOutermost (m := DiskM) inside outer disk).2 = disk := by
  induction outer generalizing inside with
  | nil => rfl
  | cons path outer ih =>
    rw [List.forall_mem_cons] at hnone
    by_cases hpath : path = ""
    · rw [hpath, makeOutermost_of_empty]
    · rcases stands_or_free_or_refuses disk path with hstands | ⟨place, hfree⟩ | hrefuses
      · rw [makeOutermost_of_stands hstands]
      · exact absurd hfree (hnone.1 place)
      · rcases makeOutermost_of_refuses hrefuses hpath inside outer with ⟨refusal, heq⟩ | ⟨-, heq⟩
        · rw [heq]
        · rw [heq, ih hnone.2]

theorem makeEach_of_none_free
    (hnone : ∀ path ∈ paths, ∀ place, disk.find path ≠ .ok (.free place)) :
    (makeEach (m := DiskM) paths disk).2 = disk := by
  induction paths with
  | nil => rfl
  | cons path paths ih =>
    rw [List.forall_mem_cons] at hnone
    rcases stands_or_free_or_refuses disk path with hstands | ⟨place, hfree⟩ | hrefuses
    · rw [makeEach_of_stands hstands, ih hnone.2]
    · exact absurd hfree (hnone.1 place)
    · obtain ⟨refusal, heq⟩ := makeEach_of_refuses hrefuses paths
      rw [heq]

/-- Where no ancestor is free, nothing is made. -/
theorem makeDirectories_of_none_free
    (hnone : ∀ above ∈ Path.ancestors output, ∀ place, disk.find above ≠ .ok (.free place)) :
    (makeDirectories (m := DiskM) output disk).2 = disk := by
  rcases makeOutermost_spec disk (Path.ancestors output) [] with ⟨refusal, houtermost⟩ |
    ⟨visited, rest, next, hsplit, houtermost, -, -, -⟩
  · rw [makeDirectories_eq_of_error houtermost]
  · have hnext : next = disk := by
      have hsame := makeOutermost_of_none_free hnone []
      rwa [houtermost] at hsame
    rw [makeDirectories_eq_of_ok houtermost, hnext, List.append_nil]
    refine makeEach_of_none_free fun path hpath => hnone path ?_
    rw [hsplit]
    exact List.mem_append_left _ (List.mem_reverse.mp hpath)

/-- Making an output directory adds some directory exactly if some ancestor is free. -/
theorem makeDirectories_gained_iff (disk : Disk) (output : String) :
    (∃ place, Gained disk (makeDirectories (m := DiskM) output disk).2 place) ↔
      admits output = true ∧
        ∃ above ∈ Path.ancestors output, ∃ place, disk.find above = .ok (.free place) := by
  constructor
  · rintro ⟨place, hmissing, hmade⟩
    -- Otherwise the disk would have stayed as it was.
    have hchanged : (makeDirectories (m := DiskM) output disk).2 ≠ disk := by
      intro hsame
      rw [hsame, hmissing] at hmade
      cases hmade
    constructor
    · by_contra hpath
      exact hchanged (makeDirectories_of_not_admits (Bool.eq_false_iff.mpr hpath))
    · by_contra hnone
      refine hchanged (makeDirectories_of_none_free fun above habove place hfree => hnone ?_)
      exact ⟨above, habove, place, hfree⟩
  · rintro ⟨houtput, above, habove, place, hfree⟩
    exact ⟨place, gained_of_free houtput habove hfree⟩

/-! ### Failed attempts -/

/-- **What a failed attempt leaves behind.**  All entries are left as they were, but
there may be more directories that the output path leads through.  There are some
exactly if the page can be rendered, the output path is one that is followed, and it
or a path above it leads to a free name. -/
theorem generate_gained_iff (page : Page) (output : String) (registry : Registry)
    (settings : Settings) (disk final : Disk) (failure : Failure)
    (h : generate (m := DiskM) page output registry settings disk = (.error failure, final)) :
    Grows (Path.ancestors output) disk final ∧
    ((∃ place, Gained disk final place) ↔
      (∃ sources, page.render registry settings = .ok sources) ∧ admits output = true ∧
        ∃ above ∈ Path.ancestors output, ∃ place, disk.find above = .ok (.free place)) := by
  cases hrender : page.render registry settings with
  | error reason =>
    rw [generate_of_failure hrender] at h
    obtain rfl : disk = final := (Prod.mk.inj h).2
    refine ⟨Grows.refl _ disk, fun ⟨place, hmissing, hmade⟩ => ?_, fun ⟨⟨sources, hok⟩, _⟩ => ?_⟩
    · rw [hmissing] at hmade
      cases hmade
    · cases hok
  | ok sources =>
    have hwrote := writeInto_wrote (Page.named_of_render hrender) output disk
    rw [generate_of_render hrender, Prod.mk.injEq] at h
    obtain ⟨hresult, rfl⟩ := h
    cases hrefused : (writeInto (m := DiskM) output sources disk).1 with
    | ok artifacts =>
      rw [hrefused] at hresult
      cases hresult
    | error refusal =>
      rw [hrefused] at hwrote
      have hsame := hwrote.same_of_refused
      refine ⟨(grows_of_makeDirectories rfl).same hsame, ?_⟩
      rw [exists_congr hsame.gained_iff, makeDirectories_gained_iff]
      simp

/-- A page whose view is called `NoteView.kt`. -/
def notePage : Page :=
  { name := "note", root := { component := "Text" } }

/-- The page is rendered, but a directory that is made on the way to its output has the
name of its view. -/
theorem notePage_gained :
    ∃ failure final,
      generate (m := DiskM) notePage "NoteView.kt/.." .compose {} {} = (.error failure, final) ∧
      ∃ place, Gained {} final place := by
  have hrender : (notePage.render .compose {}).isOk = true := by decide +kernel
  have hfails : (generate (m := DiskM) notePage "NoteView.kt/.." .compose {} {}).1.isOk
      = false := by decide +kernel
  cases hrun : generate (m := DiskM) notePage "NoteView.kt/.." .compose {} {} with
  | mk result final =>
    cases result with
    | ok artifacts =>
      rw [hrun] at hfails
      cases hfails
    | error failure =>
      obtain ⟨-, hgained⟩ :=
        generate_gained_iff notePage "NoteView.kt/.." .compose {} {} final failure hrun
      refine ⟨failure, final, rfl, hgained.mpr ⟨?_, by decide, "NoteView.kt", by decide,
        ["NoteView.kt"], rfl⟩⟩
      cases hsources : notePage.render .compose {} with
      | ok sources => exact ⟨sources, rfl⟩
      | error reason =>
        rw [hsources] at hrender
        cases hrender

/-- An attempt that fails may leave a directory that was not there before. -/
theorem notePage_leaves_directory :
    ¬∀ (page : Page) (output : String) (registry : Registry) (settings : Settings)
      (disk : Disk),
      (generate (m := DiskM) page output registry settings disk).1.isOk = false →
      ∀ place,
        (generate (m := DiskM) page output registry settings disk).2.holdsDirectory place = true →
        disk.holdsDirectory place = true := by
  intro h
  exact absurd (h notePage "NoteView.kt/.." .compose {} {} (by decide +kernel) ["NoteView.kt"]
    (by decide +kernel)) (by decide)

end Pagewright
