/-
The paths of a manifest, and its document.

* `Path.join_spec` — what becomes of a path below a directory that leads from the root;
* `Manifest.decodes` — a manifest is read however it is written, and an option that is
  left out has no value again;
* `Manifest.resolve_settles` — once the paths of a manifest are placed they stay where
  they are, and manifests can be kept as documents before and after.
-/
import Mathlib.Data.List.Forall2
import Pagewright.Manifest.Document
import Pagewright.Proofs.Json.Decoding
import Pagewright.Proofs.Paths

namespace Pagewright

open Json

variable {depth : Nat}

/-! ### Paths -/

namespace Path

/-- What a path becomes below a directory: an absolute path stays as it is, and the
names of any other come behind those of the directory. -/
structure PlacedBelow (directory path placed : String) : Prop where
  absolute : isAbsolute placed = true
  unchanged : isAbsolute path = true → placed = path
  names : isAbsolute path = false → Path.names placed = Path.names directory ++ Path.names path
  ends : ∃ before, placed = before ++ path

theorem join_spec {directory : String} (h : isAbsolute directory = true) (path : String) :
    PlacedBelow directory path (join directory path) where
  absolute := isAbsolute_join_of_isAbsolute h path
  unchanged hpath := join_of_isAbsolute hpath directory
  names hpath := names_join_of_relative directory hpath
  ends := by
    rw [join]
    split
    · exact ⟨"", String.empty_append.symm⟩
    · split <;> exact ⟨_, rfl⟩

end Path

namespace Manifest

/-- A manifest with its paths placed below a directory. -/
structure PlacedBelow (manifest : Manifest) (directory : String) (placed : Manifest) : Prop where
  pages : List.Forall₂ (Path.PlacedBelow directory) manifest.pages placed.pages
  output : Path.PlacedBelow directory manifest.output placed.output
  table : Option.Rel (Path.PlacedBelow directory) manifest.table? placed.table?
  others : { placed with pages := manifest.pages, output := manifest.output,
                         table? := manifest.table? } = manifest

theorem resolve_spec {directory : String} (h : Path.isAbsolute directory = true)
    (manifest : Manifest) : manifest.PlacedBelow directory (manifest.resolve directory) where
  pages := by
    rw [resolve, List.forall₂_map_right_iff, List.forall₂_same]
    exact fun path _ => Path.join_spec h path
  output := Path.join_spec h manifest.output
  table := by
    rw [resolve]
    cases manifest.table? with
    | none => exact .none
    | some path => exact .some (Path.join_spec h path)
  others := rfl

theorem resolve_resolve {directory : String} (h : Path.isAbsolute directory = true)
    (manifest : Manifest) (other : String) :
    (manifest.resolve directory).resolve other = manifest.resolve directory := by
  have hjoin (path : String) :
      Path.join other (Path.join directory path) = Path.join directory path :=
    Path.join_of_isAbsolute (Path.isAbsolute_join_of_isAbsolute h path) other
  simp only [resolve, List.map_map, Option.map_map, Function.comp_def, hjoin]

end Manifest

/-! ### Documents -/

/-- A text that is left out when there is none. -/
theorem Json.Fills.optionalText {α : Type} {slots : List (Slot α)} {value result : α}
    {key expected : String} {text? : Option String} {set : Option String → α → α}
    {entries : List (String × Value)} (hnone : set none value = value)
    (h : Fills depth slots (set text? value) entries result) :
    Fills depth (optionalField key (optional (text expected)) set :: slots) value
      (optionalEntry key text? ++ entries) result := by
  cases text? with
  | some text => exact .given ((decodes_text expected text depth).optional.optionalField set) h
  | none =>
    rw [hnone] at h
    exact .leftOut rfl h

namespace Manifest

/-- A manifest is read however it is written, with no value for what is left out. -/
theorem decodes (manifest : Manifest) :
    Decodes reader manifest.toJson depthLimit manifest := by
  refine Decodes.record (fun _ => by simp [slots, required, optionalField]) fun inner => ?_
  simp only [List.cons_append, List.nil_append, List.append_assoc]
  refine .given ((decodes_text _ manifest.name inner).required _) ?_
  refine .given ((Decodes.list fun depth path _ => decodes_text _ path depth).required _) ?_
  refine .given ((decodes_text _ manifest.output inner).required _) ?_
  refine .optionalText rfl ?_
  refine .optionalText rfl ?_
  refine .optionalText rfl ?_
  exact .given ((decodes_flag manifest.strict inner).optionalField _) .done

theorem nesting_toJson_le (manifest : Manifest) : manifest.toJson.nesting ≤ 2 := by
  have hoptional (key : String) (value? : Option String) :
      ∀ entry ∈ optionalEntry key value?, entry.2.nesting ≤ 1 := by
    rw [optionalEntry, List.forall_mem_map]
    exact fun _ _ => Nat.zero_le _
  have hpages : (Value.list (manifest.pages.map .string)).nesting ≤ 1 :=
    Value.nesting_list_le.mpr fun _ _ => Nat.le_refl 0
  rw [toJson, Value.nesting_object_le]
  simp only [List.forall_mem_append, List.forall_mem_cons]
  exact ⟨⟨⟨⟨⟨Nat.zero_le _, hpages, Nat.zero_le _, nofun⟩, hoptional _ _⟩, hoptional _ _⟩,
    hoptional _ _⟩, Nat.zero_le _, nofun⟩

theorem read_written (manifest : Manifest) (medium : Medium) :
    readDocument reader medium (Input.ofText manifest.toJson.compact) = .ok manifest :=
  (manifest.decodes.document medium).1 (Nat.le_trans manifest.nesting_toJson_le (by decide))

/-- **The paths of a manifest are settled once.**  Below a directory that leads from
the root, every path becomes absolute; those that were so stay as they are, and the
names of all others come behind those of the directory.  Nothing else changes, and
below any other directory nothing changes any more.  The manifest can be written and
read before and after, with the options that it leaves out. -/
theorem resolve_settles (manifest : Manifest) (directory : String)
    (h : Path.isAbsolute directory = true) :
    manifest.PlacedBelow directory (manifest.resolve directory) ∧
    (∀ other, (manifest.resolve directory).resolve other = manifest.resolve directory) ∧
    ∀ medium,
      readDocument reader medium (Input.ofText manifest.toJson.compact) = .ok manifest ∧
      readDocument reader medium (Input.ofText (manifest.resolve directory).toJson.compact)
        = .ok (manifest.resolve directory) :=
  ⟨manifest.resolve_spec h, manifest.resolve_resolve h, fun medium =>
    ⟨manifest.read_written medium, (manifest.resolve directory).read_written medium⟩⟩

end Manifest

/-- A manifest with paths that name nothing, stay in place, or end in a slash, and
without a package. -/
def scatteredManifest : Manifest where
  name := "\"demo\"\n"
  pages := ["", ".", "pages/", "/abs/home.json"]
  output := "../build//"
  binding? := some ""
  table? := some "./table.json"

/-- The scattered manifest is settled below the root. -/
theorem scatteredManifest_resolve_settles :
    Path.isAbsolute "/" = true ∧
    scatteredManifest.resolve "/" = { scatteredManifest with
      pages := ["/", "/.", "/pages/", "/abs/home.json"]
      output := "/../build//"
      table? := some "/./table.json" } ∧
    (scatteredManifest.resolve "/").resolve "elsewhere" = scatteredManifest.resolve "/" ∧
    readDocument Manifest.reader .memory (Input.ofText scatteredManifest.toJson.compact)
      = .ok scatteredManifest := by
  have hroot : Path.isAbsolute "/" = true := by decide
  obtain ⟨-, hsettled, hread⟩ := scatteredManifest.resolve_settles "/" hroot
  exact ⟨hroot, by decide +kernel, hsettled "elsewhere", (hread .memory).1⟩

end Pagewright
