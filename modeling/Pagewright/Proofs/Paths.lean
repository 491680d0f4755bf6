/-
Paths and the names in them.

* `names_join_of_relative` — a path that leads from a directory comes behind the names of
  the directory;
* `names_ofSteps` — steps that are written with slashes between them are read back;
* `filter_steps` — the steps of a path are its names but for those that stay in place;
* `names_upTo`, `upTo_sublist` — the names of a path above another one, and how it is written.
-/
import Mathlib.Data.List.Flatten
import Pagewright.Storage.Path

namespace Pagewright.Path

/-! ### Cutting at slashes -/

theorem cut_ne_nil : ∀ path : List Char, cut path ≠ []
  | [] => by simp [cut]
  | c :: path => by
    rw [cut]
    split
    · exact List.cons_ne_nil _ _
    · cases cut path <;> exact List.cons_ne_nil _ _

theorem cut_append_slash (before rest : List Char) :
    cut (before ++ '/' :: rest) = cut before ++ cut rest := by
  induction before with
  | nil => rfl
  | cons c before ih =>
    rw [List.cons_append, cut, cut, ih]
    split
    · rfl
    · cases h : cut before with
      | nil => exact absurd h (cut_ne_nil before)
      | cons name names => rfl

theorem cut_of_not_mem : ∀ {name : List Char}, '/' ∉ name → cut name = [name]
  | [], _ => rfl
  | c :: name, h => by
    have hc : c ≠ '/' := fun hc => h (hc ▸ List.mem_cons_self)
    rw [cut, if_neg hc, cut_of_not_mem fun hname => h (List.mem_cons_of_mem _ hname)]

theorem slash_not_mem_of_mem_cut : ∀ {path name : List Char}, name ∈ cut path → '/' ∉ name
  | [], name, h => by
    obtain rfl : name = [] := List.mem_singleton.mp h
    exact List.not_mem_nil
  | c :: path, name, h => by
    have ih := fun name (h : name ∈ cut path) => slash_not_mem_of_mem_cut h
    rw [cut] at h
    split at h
    · rcases List.mem_cons.mp h with rfl | h
      · exact List.not_mem_nil
      · exact ih name h
    · rename_i hc
      cases hcut : cut path with
      | nil => exact absurd hcut (cut_ne_nil path)
      | cons first rest =>
        rw [hcut] at h ih
        rcases List.mem_cons.mp h with rfl | h
        · intro hmem
          rcases List.mem_cons.mp hmem with heq | hmem
          · exact hc heq.symm
          · exact ih first List.mem_cons_self hmem
        · exact ih name (List.mem_cons_of_mem _ h)

/-! ### Names -/

/-- What stands between two slashes. -/
structure IsName (name : String) : Prop where
  nonempty : name.toList ≠ []
  slash : '/' ∉ name.toList

/-- A name that leads on to an entry of its own. -/
structure Plain (name : String) : Prop extends IsName name where
  here : name ≠ "."
  up : name ≠ ".."

/-- A name that can be that of an entry. -/
structure Component (name : String) : Prop extends Plain name where
  nul : '\x00' ∉ name.toList

theorem isName_of_mem_names {path name : String} (h : name ∈ names path) : IsName name := by
  obtain ⟨piece, hpiece, rfl⟩ := List.mem_map.mp h
  obtain ⟨hcut, hne⟩ := List.mem_filter.mp hpiece
  rw [Bool.not_eq_true', List.isEmpty_eq_false_iff] at hne
  refine ⟨?_, ?_⟩
  · rwa [String.toList_ofList]
  · rw [String.toList_ofList]
    exact slash_not_mem_of_mem_cut hcut

theorem ne_empty_of_names {path : String} (h : names path ≠ []) : path ≠ "" := by
  rintro rfl
  exact h rfl

theorem IsName.names {name : String} (h : IsName name) : names name = [name] := by
  have hfilter : (cut name.toList).filter (!·.isEmpty) = [name.toList] := by
    rw [cut_of_not_mem h.slash]
    exact List.filter_cons_of_pos (by simpa using h.nonempty)
  rw [Path.names, hfilter, List.map_singleton, String.ofList_toList]

theorem names_slash (before rest : String) :
    names (before ++ "/" ++ rest) = names before ++ names rest := by
  have hslash : (before ++ "/" ++ rest).toList = before.toList ++ '/' :: rest.toList := by
    simp
  rw [names, hslash, cut_append_slash, List.filter_append, List.map_append]
  rfl

theorem IsName.not_isAbsolute {name : String} (h : IsName name) : isAbsolute name = false := by
  cases hname : name.toList with
  | nil => exact absurd hname h.nonempty
  | cons c rest =>
    have hc : c ≠ '/' := fun hc => h.slash (by rw [hname, hc]; exact List.mem_cons_self)
    simpa [isAbsolute, hname] using hc

/-- A path that leads from a directory has the names of the directory in front. -/
theorem names_join_of_relative (directory : String) {path : String}
    (h : isAbsolute path = false) : names (join directory path) = names directory ++ names path := by
  rw [join, if_neg (by simp [h])]
  split
  · rename_i hend
    rcases Bool.or_eq_true _ _ |>.mp hend with hempty | hslash
    · obtain rfl : directory = "" := String.isEmpty_iff.mp hempty
      rw [String.empty_append]
      rfl
    · -- The last piece of a path that ends in a slash is empty.
      obtain ⟨before, hbefore⟩ : ∃ before, directory.toList = before ++ ['/'] :=
        List.getLast?_eq_some_iff.mp (by simpa [endsInSlash] using hslash)
      obtain rfl : directory = String.ofList before ++ "/" ++ "" := by
        rw [← String.toList_inj, hbefore]
        simp
      rw [names_slash, String.append_empty, names_slash]
      exact congrArg (· ++ names path) (List.append_nil _).symm
  · exact names_slash directory path

/-- A name put below a directory comes behind the names of the directory. -/
theorem names_join (directory : String) {name : String} (h : IsName name) :
    names (join directory name) = names directory ++ [name] := by
  rw [names_join_of_relative directory h.not_isAbsolute, h.names]

theorem exists_of_isAbsolute {path : String} (h : isAbsolute path = true) :
    ∃ rest, path.toList = '/' :: rest := by
  simpa [isAbsolute, List.head?_eq_some_iff] using h

theorem isAbsolute_append {path rest : String} (h : path.toList ≠ []) :
    isAbsolute (path ++ rest) = isAbsolute path := by
  obtain ⟨c, tail, hpath⟩ := List.exists_cons_of_ne_nil h
  rw [isAbsolute, isAbsolute, String.toList_append, hpath]
  rfl

theorem join_of_isAbsolute {path : String} (h : isAbsolute path = true) (directory : String) :
    join directory path = path :=
  if_pos h

theorem isAbsolute_join_of_isAbsolute {directory : String} (h : isAbsolute directory = true)
    (path : String) : isAbsolute (join directory path) = true := by
  obtain ⟨rest, hrest⟩ := exists_of_isAbsolute h
  have hne : directory.toList ≠ [] := by simp [hrest]
  rw [join]
  split
  · assumption
  · split
    · rw [isAbsolute_append hne, h]
    · rw [String.append_assoc, isAbsolute_append hne, h]

theorem isAbsolute_join (directory : String) {name : String} (h : IsName name) :
    isAbsolute (join directory name) = isAbsolute directory := by
  rw [join, if_neg (by simp [h.not_isAbsolute])]
  by_cases hdirectory : directory.toList = []
  · obtain rfl : directory = "" := by rwa [← String.toList_inj]
    simpa [isAbsolute] using h.not_isAbsolute
  · split
    · exact isAbsolute_append hdirectory
    · rw [String.append_assoc]
      exact isAbsolute_append hdirectory

theorem endsInSlash_join (directory : String) {name : String} (h : IsName name) :
    endsInSlash (join directory name) = false := by
  obtain ⟨before, hbefore⟩ : ∃ before, join directory name = before ++ name := by
    rw [join, if_neg (by simp [h.not_isAbsolute])]
    split <;> exact ⟨_, rfl⟩
  have hlast : name.toList.getLast h.nonempty ≠ '/' :=
    fun hslash => h.slash (hslash ▸ List.getLast_mem h.nonempty)
  rw [endsInSlash, hbefore, String.toList_append, List.getLast?_append,
    List.getLast?_eq_some_getLast h.nonempty]
  simpa using hlast

/-! ### Steps -/

theorem steps_sublist (path : String) : (steps path).Sublist (names path) := by
  rw [steps]
  split
  · exact List.nil_sublist _
  · rename_i first rest hnames
    have hrest : (rest.filter (· ≠ ".")).Sublist rest := List.filter_sublist
    rw [hnames]
    split
    · exact hrest.cons first
    · exact hrest.cons_cons first

theorem isName_of_mem_steps {path name : String} (h : name ∈ steps path) : IsName name :=
  isName_of_mem_names ((steps_sublist path).subset h)

/-- The steps of a path are its names but for those that stay in place. -/
theorem filter_steps (path : String) :
    (steps path).filter (· ≠ ".") = (names path).filter (· ≠ ".") := by
  rw [steps]
  split
  · rename_i hnames
    rw [hnames]
  · rename_i first rest hnames
    rw [hnames, List.filter_append, List.filter_filter]
    simp only [Bool.and_self]
    split
    · rename_i hfirst
      -- Only the first name may be one that stays in place.
      obtain rfl : first = "." := by simp_all
      simp
    · rw [← List.filter_append]
      rfl

theorem names_intercalate {steps : List String} (h : ∀ name ∈ steps, IsName name) :
    names ("/".intercalate steps) = steps := by
  induction steps with
  | nil => rfl
  | cons name rest ih =>
    have hname := h name List.mem_cons_self
    have hrest := ih fun other hother => h other (List.mem_cons_of_mem _ hother)
    cases rest with
    | nil => rw [String.intercalate_singleton, hname.names]
    | cons next rest =>
      rw [String.intercalate_cons_cons, names_slash, hname.names, hrest, List.singleton_append]

/-- Steps that are written with slashes between them are read back. -/
theorem names_ofSteps (absolute : Bool) {steps : List String} (h : ∀ name ∈ steps, IsName name) :
    names (ofSteps absolute steps) = steps := by
  cases absolute with
  | false =>
    show names ("" ++ _) = steps
    rw [String.empty_append, names_intercalate h]
  | true =>
    show names ("" ++ "/" ++ _) = steps
    rw [names_slash, names_intercalate h]
    rfl

theorem isAbsolute_ofSteps (absolute : Bool) {steps : List String}
    (h : ∀ name ∈ steps, IsName name) : isAbsolute (ofSteps absolute steps) = absolute := by
  cases absolute with
  | true => rw [ofSteps, isAbsolute, String.toList_append]; rfl
  | false =>
    cases steps with
    | nil => rfl
    | cons name rest =>
      -- A step in front is no slash.
      have hname := h name List.mem_cons_self
      show isAbsolute ("" ++ _) = false
      rw [String.empty_append]
      cases rest with
      | nil => rw [String.intercalate_singleton, hname.not_isAbsolute]
      | cons next rest =>
        rw [String.intercalate_cons_cons, String.append_assoc, isAbsolute_append hname.nonempty,
          hname.not_isAbsolute]

/-! ### Ancestors -/

/-- The path that the first steps of another one make up. -/
def upTo (path : String) (n : Nat) : String :=
  ofSteps (isAbsolute path) ((steps path).take n)

theorem ancestors_eq (path : String) :
    ancestors path = path :: (List.range (steps path).length).reverse.map (upTo path) :=
  rfl

/-- A path is made of its pieces, with a slash in front of each. -/
theorem slash_cons_eq_flatMap_cut (path : List Char) :
    '/' :: path = (cut path).flatMap ('/' :: ·) := by
  induction path with
  | nil => rfl
  | cons c path ih =>
    rw [cut]
    split
    · rename_i hc
      rw [hc, List.flatMap_cons, ← ih]
      rfl
    · cases hcut : cut path with
      | nil => exact absurd hcut (cut_ne_nil path)
      | cons name names =>
        rw [hcut, List.flatMap_cons] at ih
        rw [(List.cons.inj ih).2]
        rfl

/-- Names with a slash in front of each. -/
def slashed (names : List String) : List Char :=
  names.flatMap fun name => '/' :: name.toList

theorem slash_cons_intercalate (name : String) (names : List String) :
    '/' :: ("/".intercalate (name :: names)).toList = slashed (name :: names) := by
  induction names generalizing name with
  | nil => simp [slashed]
  | cons next names ih =>
    rw [String.intercalate_cons_cons, String.toList_append, String.toList_append, slashed,
      List.flatMap_cons, ← slashed, ← ih]
    simp

theorem slashed_names_sublist (path : String) :
    (slashed (names path)).Sublist
      (if isAbsolute path then path.toList else '/' :: path.toList) := by
  have hslashed : slashed (names path)
      = ((cut path.toList).filter (!·.isEmpty)).flatMap ('/' :: ·) := by
    simp [slashed, names, List.flatMap_map]
  rw [hslashed]
  split
  · rename_i habsolute
    obtain ⟨rest, hrest⟩ := exists_of_isAbsolute habsolute
    -- The piece in front of the first slash is empty.
    rw [hrest, cut, if_pos rfl, List.filter_cons_of_neg (by simp), slash_cons_eq_flatMap_cut]
    exact List.Sublist.flatMap List.filter_sublist _
  · rw [slash_cons_eq_flatMap_cut]
    exact List.Sublist.flatMap List.filter_sublist _

/-- A path above another one is written with no character more. -/
theorem upTo_sublist (path : String) (n : Nat) : (upTo path n).toList.Sublist path.toList := by
  have hsteps : (slashed ((steps path).take n)).Sublist
      (if isAbsolute path then path.toList else '/' :: path.toList) :=
    (List.Sublist.flatMap ((List.take_sublist n _).trans (steps_sublist path)) _).trans
      (slashed_names_sublist path)
  rw [upTo, ofSteps, String.toList_append]
  cases habsolute : isAbsolute path with
  | true =>
    rw [habsolute, if_pos rfl] at hsteps
    cases htake : (steps path).take n with
    | nil =>
      obtain ⟨rest, hrest⟩ := exists_of_isAbsolute habsolute
      simp [hrest]
    | cons name names =>
      rw [htake, ← slash_cons_intercalate] at hsteps
      exact hsteps
  | false =>
    rw [habsolute, if_neg Bool.false_ne_true] at hsteps
    cases htake : (steps path).take n with
    | nil => exact List.nil_sublist _
    | cons name names =>
      rw [htake, ← slash_cons_intercalate] at hsteps
      exact List.Sublist.of_cons_cons hsteps

theorem names_upTo (path : String) (n : Nat) : names (upTo path n) = (steps path).take n :=
  names_ofSteps _ fun _ hname => isName_of_mem_steps (List.mem_of_mem_take hname)

theorem isAbsolute_upTo (path : String) (n : Nat) : isAbsolute (upTo path n) = isAbsolute path :=
  isAbsolute_ofSteps _ fun _ hname => isName_of_mem_steps (List.mem_of_mem_take hname)

end Pagewright.Path
