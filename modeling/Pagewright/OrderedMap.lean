/-
Maps from names that remember the order in which the names came.

* `insert` — a name that is there keeps its place and takes the new value, a new one goes to the
  end; so the names are always distinct (`distinct`).
* `find?` — the value of a name; `find?_insert` says what it becomes.
-/
namespace Pagewright

variable {κ α : Type} [BEq κ] [LawfulBEq κ]

/-- Puts a value at the place of its name, or at the end. -/
def putEntry (name : κ) (value : α) : List (κ × α) → List (κ × α)
  | [] => [(name, value)]
  | (name', value') :: rest =>
    if name' == name then (name, value) :: rest else (name', value') :: putEntry name value rest

theorem mem_names_putEntry {name x : κ} {value : α} {entries : List (κ × α)} :
    x ∈ (putEntry name value entries).map Prod.fst ↔
      x = name ∨ x ∈ entries.map Prod.fst := by
  induction entries with
  | nil => simp [putEntry]
  | cons entry rest ih =>
    obtain ⟨name', value'⟩ := entry
    by_cases h : name' = name
    · simp [putEntry, h]
    · have hb : (name' == name) = false := beq_eq_false_iff_ne.2 h
      simp only [putEntry, hb, Bool.false_eq_true, if_false, List.map_cons, List.mem_cons, ih]
      grind

theorem nodup_names_putEntry {name : κ} {value : α} {entries : List (κ × α)}
    (h : (entries.map Prod.fst).Nodup) :
    ((putEntry name value entries).map Prod.fst).Nodup := by
  induction entries with
  | nil => simp [putEntry]
  | cons entry rest ih =>
    obtain ⟨name', value'⟩ := entry
    rw [List.map_cons, List.nodup_cons] at h
    by_cases hn : name' = name
    · subst hn
      simpa [putEntry] using h
    · have hb : (name' == name) = false := beq_eq_false_iff_ne.2 hn
      simp only [putEntry, hb, Bool.false_eq_true, if_false, List.map_cons, List.nodup_cons,
        mem_names_putEntry]
      exact ⟨not_or.2 ⟨hn, h.1⟩, ih h.2⟩

theorem lookup_putEntry {name x : κ} {value : α} {entries : List (κ × α)} :
    (putEntry name value entries).lookup x
      = if x == name then some value else entries.lookup x := by
  induction entries with
  | nil => cases h : x == name <;> simp [putEntry, List.lookup_cons, h]
  | cons entry rest ih =>
    obtain ⟨name', value'⟩ := entry
    by_cases hn : name' = name
    · subst hn
      cases h : x == name' <;> simp [putEntry, List.lookup_cons, h]
    · have hb : (name' == name) = false := beq_eq_false_iff_ne.2 hn
      cases h : x == name'
      · simp [putEntry, List.lookup_cons, hb, h, ih]
      · rw [eq_of_beq h]
        simp [putEntry, hb]

/-- Named values in the order in which the names first came. -/
structure OrderedMap (α : Type) where
  entries : List (String × α)
  distinct : (entries.map Prod.fst).Nodup
  deriving DecidableEq

namespace OrderedMap

/-- The map without names. -/
def empty : OrderedMap α :=
  ⟨[], by simp⟩

instance : EmptyCollection (OrderedMap α) := ⟨empty⟩
instance : Inhabited (OrderedMap α) := ⟨empty⟩

/-- Binds a name to a value. -/
def insert (map : OrderedMap α) (name : String) (value : α) : OrderedMap α :=
  ⟨putEntry name value map.entries, nodup_names_putEntry map.distinct⟩

/-- The value of a name. -/
def find? (map : OrderedMap α) (name : String) : Option α :=
  map.entries.lookup name

theorem find?_insert {map : OrderedMap α} {name x : String} {value : α} :
    (map.insert name value).find? x = if x == name then some value else map.find? x :=
  lookup_putEntry

/-- The names, in order. -/
def names (map : OrderedMap α) : List String :=
  map.entries.map Prod.fst

/-- The values, in the order of their names. -/
def values (map : OrderedMap α) : List α :=
  map.entries.map Prod.snd

/-- The number of names. -/
def size (map : OrderedMap α) : Nat :=
  map.entries.length

/-- Whether there is no name. -/
def isEmpty (map : OrderedMap α) : Bool :=
  map.entries.isEmpty

end OrderedMap

end Pagewright
