/-
What becomes of a table in the course of steps.

A table comes about by steps: it is replaced by the empty or the built-in one
or by one that is read, or takes one more entry.  `Insertions` keeps the
entries as they were put in since the table was last replaced, those of a
document in the order in which they stand there.

* `Registry.after_eq` — a table is what is left of these entries;
* `Registry.decodes` — a table is read however it is written;
* `Registry.after_survives` — both for whatever steps there were.
-/
import Pagewright.Proofs.Json.Decoding
import Pagewright.Proofs.Json.Entries
import Pagewright.Proofs.Report
import Pagewright.Registry.Document

namespace Pagewright

open Json

variable {depth : Nat}

/-! ### Documents of tables -/

theorem Construct.decodes (construct : Construct) :
    Decodes (record "ConstructDescriptor" default (within (fun _ => slots) depth))
      construct.toJson depth construct := by
  refine Decodes.record (fun _ => by simp [slots, required]) fun inner => ?_
  exact .given ((decodes_text _ construct.target inner).required _) .done

theorem EventRule.decodes (rule : EventRule) :
    Decodes (record "EventEmissionRule" default (within (fun _ => slots) depth))
      rule.toJson depth rule := by
  refine Decodes.record (fun _ => by simp [slots, required]) fun inner => ?_
  exact .given ((decodes_text _ rule.parameter inner).required _) .done

/-- A table whose version is understood is read however it is written. -/
theorem Registry.decodes {registry : Registry} (h : registry.version ≤ currentVersion) :
    Decodes reader registry.toJson depthLimit registry := by
  have hversion : registry.version < 10 := Nat.lt_of_le_of_lt h (by decide)
  refine Decodes.record (fun _ => by simp [slots, required, optionalField]) fun inner => ?_
  refine .given ((decodes_digit hversion inner).required _) ?_
  refine .given ((Decodes.map fun _ entry _ => entry.2.decodes).optionalField _) ?_
  exact .given ((Decodes.map fun _ entry _ => entry.2.decodes).optionalField _) .done

theorem Registry.nesting_toJson_le (registry : Registry) : registry.toJson.nesting ≤ 3 := by
  rw [toJson, Value.nesting_object_le, List.forall_mem_cons, List.forall_mem_cons,
    List.forall_mem_singleton]
  refine ⟨Nat.zero_le _, ?_, ?_⟩
  · rw [mapToJson, Value.nesting_object_le, List.forall_mem_map]
    exact fun _ _ => Nat.le_refl 1
  · rw [mapToJson, Value.nesting_object_le, List.forall_mem_map]
    exact fun _ _ => Nat.le_refl 1

theorem Registry.read_written {registry : Registry} (h : registry.version ≤ currentVersion)
    {document : String} (hdocument : registry.toJson.Writes (Input.ofText document)) :
    Registry.read document = .ok registry := by
  have hnesting : registry.toJson.nesting ≤ depthLimit :=
    Nat.le_trans registry.nesting_toJson_le (by decide)
  have hread := ((Registry.decodes h).document_of_writes .memory hdocument).1 hnesting
  rw [Registry.read, hread]
  exact if_pos h

/-! ### Insertions -/

/-- A version and the entries that are put into a table, in order. -/
structure Insertions where
  version : Nat
  components : List (String × Construct)
  events : List (String × EventRule)

namespace Insertions

/-- The table that some insertions make. -/
def registry (insertions : Insertions) : Registry :=
  ⟨insertions.version, .collect insertions.components, .collect insertions.events⟩

/-- The fields of a table, with its entries as they stand in a document. -/
def slots (depth : Nat) : List (Slot Insertions) := [
  required "version" natural32 fun version insertions => { insertions with version },
  optionalField "components"
    (entries (within (fun depth =>
      record "ConstructDescriptor" default (within (fun _ => Construct.slots) depth)) depth))
    fun components insertions => { insertions with components },
  optionalField "events"
    (entries (within (fun depth =>
      record "EventEmissionRule" default (within (fun _ => EventRule.slots) depth)) depth))
    fun events insertions => { insertions with events }]

/-- The insertions that the text of a table stands for. -/
def read (document : String) : Except Diagnostic Insertions :=
  readDocument (record "RegistryTable" ⟨Registry.currentVersion, [], []⟩ (within slots depthLimit))
    .memory (Input.ofText document)

theorem through_slots (depth : Nat) :
    List.Forall₂ (Slot.Through registry) (slots depth) (Registry.slots depth) := by
  have hversion (input : Input) :
      natural32 input = (natural32 input).map fun read => (id read.1, read.2) := by
    cases natural32 input <;> rfl
  refine .cons ?_ (.cons ?_ (.cons ?_ .nil))
  · exact through_required hversion fun _ _ => rfl
  · exact through_optionalField (map_eq_collect _) fun _ _ => rfl
  · exact through_optionalField (map_eq_collect _) fun _ _ => rfl

/-- A table that is read is made of the entries in its document. -/
theorem registry_read (document : String) :
    Registry.read document
      = match read document with
        | .ok insertions => insertions.registry.checked
        | .error diagnostic => .error (.text diagnostic) := by
  have hreader : Registry.reader (Input.ofText document)
      = (record "RegistryTable" ⟨Registry.currentVersion, [], []⟩ (within slots depthLimit)
          (Input.ofText document)).map fun read => (registry read.1, read.2) := by
    have hslots : within slots depthLimit = some (slots (depthLimit - 1)) := rfl
    rw [hslots, ← record_through (through_slots (depthLimit - 1))]
    rfl
  rw [Registry.read, readDocument_through hreader, ← read]
  cases read document <;> rfl

/-! ### Steps -/

end Insertions

/-- What can be done to a table: it is replaced, or takes an entry. -/
inductive Registry.Step
  | reset
  | compose
  | component (name target : String)
  | event (name parameter : String)
  | load (document : String)

namespace Registry

/-- The table after a step.  One that cannot be read leaves the table as it is. -/
def Step.apply (registry : Registry) : Step → Registry
  | .reset => .empty
  | .compose => .compose
  | .component name target => registry.withComponent name target
  | .event name parameter => registry.withEvent name parameter
  | .load document =>
    match Registry.read document with
    | .ok loaded => loaded
    | .error _ => registry

/-- The table after some steps, the first of which finds no entries. -/
def after (steps : List Step) : Registry :=
  steps.foldl Step.apply .empty

end Registry

namespace Insertions

/-- The insertions since a table was last replaced, after one more step. -/
def next (insertions : Insertions) : Registry.Step → Insertions
  | .reset => ⟨Registry.currentVersion, [], []⟩
  | .compose => ⟨Registry.currentVersion,
      [("Column", ⟨"androidx.compose.foundation.layout.Column"⟩),
        ("Text", ⟨"androidx.compose.material3.Text"⟩),
        ("Button", ⟨"androidx.compose.material3.Button"⟩)],
      [("onClick", ⟨"onClick"⟩)]⟩
  | .component name target =>
    { insertions with components := insertions.components ++ [(name, ⟨target⟩)] }
  | .event name parameter =>
    { insertions with events := insertions.events ++ [(name, ⟨parameter⟩)] }
  | .load document =>
    match read document with
    | .ok loaded => if loaded.version ≤ Registry.currentVersion then loaded else insertions
    | .error _ => insertions

/-- The insertions since a table was last replaced. -/
def after (steps : List Registry.Step) : Insertions :=
  steps.foldl next ⟨Registry.currentVersion, [], []⟩

theorem registry_next (insertions : Insertions) (step : Registry.Step) :
    (insertions.next step).registry = step.apply insertions.registry := by
  cases step with
  | reset => rfl
  | compose => rfl
  | component name target =>
    rw [next, registry, OrderedMap.collect_append]
    rfl
  | event name parameter =>
    rw [next, registry, OrderedMap.collect_append]
    rfl
  | load document =>
    rw [next, Registry.Step.apply, registry_read]
    cases read document with
    | error diagnostic => rfl
    | ok loaded =>
      by_cases hversion : loaded.version ≤ Registry.currentVersion
      · have hchecked : loaded.registry.checked = .ok loaded.registry := if_pos hversion
        simp only [if_pos hversion, hchecked]
      · have hchecked : loaded.registry.checked
            = .error (.unsupportedRegistryVersion loaded.version) :=
          if_neg hversion
        simp only [if_neg hversion, hchecked]

end Insertions

namespace Registry

/-- A table is what is left of the entries that were put into it since it was
last replaced. -/
theorem after_eq (steps : List Step) : after steps = (Insertions.after steps).registry := by
  have hempty : empty = Insertions.registry ⟨currentVersion, [], []⟩ := rfl
  rw [after, Insertions.after, hempty]
  exact List.foldl_hom Insertions.registry fun insertions step =>
    (Insertions.registry_next insertions step).symm

/-- No step makes a version that is not understood. -/
theorem Step.version_le {registry : Registry} (h : registry.version ≤ currentVersion) :
    ∀ step : Step, (step.apply registry).version ≤ currentVersion
  | .reset => Nat.le_refl _
  | .compose => Nat.le_refl _
  | .component _ _ => h
  | .event _ _ => h
  | .load document => by
    rw [Step.apply]
    cases hread : Registry.read document with
    | error failure => exact h
    | ok loaded =>
      obtain ⟨other, -, hchecked⟩ := bind_eq_ok hread
      rw [checked] at hchecked
      split_ifs at hchecked with hversion
      rwa [← Except.ok.inj hchecked]

theorem version_after_le (steps : List Step) : (after steps).version ≤ currentVersion := by
  induction steps using List.reverseRecOn with
  | nil => exact Nat.le_refl _
  | append_singleton steps step ih =>
    rw [after, List.foldl_append]
    exact step.version_le ih

end Registry

/-- A map holds what was put into it: every name once, where it came first, and
with the value that came last. -/
structure OrderedMap.Holds {α : Type} (map : OrderedMap α) (entries : List (String × α)) :
    Prop where
  once : map.names.Nodup
  names : map.names = (entries.map Prod.fst).eraseDups
  values : ∀ name, map.find? name = entries.reverse.lookup name

theorem OrderedMap.holds_collect {α : Type} (entries : List (String × α)) :
    (collect entries).Holds entries :=
  ⟨(collect entries).distinct, names_collect entries, find?_collect entries⟩

/-- **A table survives being written, whatever has become of it.**  After any
steps its version is one that is understood, each of its names stands where it
was first put in since the table was last replaced, with the value that was
put in last, and the table is read again as it is, entry by entry, from what
is written of it with or without spaces. -/
theorem Registry.after_survives (steps : List Step) :
    (after steps).version ≤ 1 ∧
    (after steps).version = (Insertions.after steps).version ∧
    (after steps).components.Holds (Insertions.after steps).components ∧
    (after steps).events.Holds (Insertions.after steps).events ∧
    Registry.read (after steps).toJson.compact = .ok (after steps) ∧
    Registry.read (after steps).toJson.pretty = .ok (after steps) := by
  have hversion := version_after_le steps
  refine ⟨hversion, ?_, ?_, ?_, ?_, ?_⟩
  · rw [after_eq]
    rfl
  · rw [after_eq]
    exact OrderedMap.holds_collect _
  · rw [after_eq]
    exact OrderedMap.holds_collect _
  · exact read_written hversion (Value.writes_compact _)
  · exact read_written hversion (Value.writes_pretty _)

example : (Registry.after [.compose, .component "Row" "a.Row", .component "Text" "a.Text",
    .component "Row" "b.Row"]).components.entries
      = [("Column", ⟨"androidx.compose.foundation.layout.Column"⟩), ("Text", ⟨"a.Text"⟩),
        ("Button", ⟨"androidx.compose.material3.Button"⟩), ("Row", ⟨"b.Row"⟩)] := by
  decide

end Pagewright
