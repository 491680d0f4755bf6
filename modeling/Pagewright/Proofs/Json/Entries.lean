/-
Names that come again in a map.

`OrderedMap.collect` is what is left of entries that are put into a map one by
one.  Readers of maps do nothing else with the entries of a document
(`map_eq_collect`), and what a record is read as may be looked at entry by
entry (`record_through`).

* `names_collect` — a name stands where it came first;
* `find?_collect` — and has the value that came last.
-/
import Mathlib.Data.List.Forall2
import Mathlib.Data.List.Induction
import Pagewright.Json.Reader

namespace Pagewright

variable {α β γ δ : Type}

namespace OrderedMap

/-- The map of some entries, put into it one after the other. -/
def collect (entries : List (String × α)) : OrderedMap α :=
  entries.foldl (fun map entry => map.insert entry.1 entry.2) ∅

theorem collect_append (entries : List (String × α)) (name : String) (value : α) :
    collect (entries ++ [(name, value)]) = (collect entries).insert name value := by
  rw [collect, List.foldl_append]
  rfl

theorem names_putEntry (name : String) (value : α) : ∀ entries : List (String × α),
    (putEntry name value entries).map Prod.fst
      = if name ∈ entries.map Prod.fst then entries.map Prod.fst
        else entries.map Prod.fst ++ [name]
  | [] => rfl
  | (name', value') :: entries => by
    by_cases hname : name' = name
    · subst hname
      simp [putEntry]
    · have hne : ¬name = name' := Ne.symm hname
      rw [putEntry, if_neg (by simpa using hname), List.map_cons, names_putEntry name value entries]
      simp only [List.map_cons, List.mem_cons, hne, false_or]
      split
      · rfl
      · rfl

/-- A name stands where it came first. -/
theorem names_collect (entries : List (String × α)) :
    (collect entries).names = (entries.map Prod.fst).eraseDups := by
  induction entries using List.reverseRecOn with
  | nil => rfl
  | append_singleton entries entry ih =>
    obtain ⟨name, value⟩ := entry
    have hnames : (collect (entries ++ [(name, value)])).names
        = if name ∈ (collect entries).names then (collect entries).names
          else (collect entries).names ++ [name] := by
      rw [collect_append]
      exact names_putEntry name value (collect entries).entries
    rw [hnames, ih, List.map_append, List.eraseDups_append]
    by_cases hmem : name ∈ entries.map Prod.fst
    · rw [if_pos (List.mem_eraseDups.mpr hmem)]
      simp [List.removeAll, hmem]
    · rw [if_neg fun h => hmem (List.mem_eraseDups.mp h)]
      simp [List.removeAll, List.eraseDups_cons, hmem]

/-- A name has the value that came last. -/
theorem find?_collect (entries : List (String × α)) (name : String) :
    (collect entries).find? name = entries.reverse.lookup name := by
  induction entries using List.reverseRecOn with
  | nil => rfl
  | append_singleton entries entry ih =>
    obtain ⟨name', value⟩ := entry
    rw [collect_append, find?_insert, ih, List.reverse_append, List.reverse_singleton,
      List.singleton_append, List.lookup_cons]
    cases name == name' <;> rfl

end OrderedMap

namespace Json

/-! ### Entries of a map -/

/-- Reads the entries of a map up to its end, as they stand. -/
def pairs (item : Reader α) : (turns : Nat) → (first : Bool) → Reader (List (String × α))
  | 0, _, input => .error (.next .endInObject input)
  | turns + 1, first, input => do
    match ← nextKey first input with
    | .finished rest => return ([], rest)
    | .more input =>
      let (key, input) ← readText input
      let input ← readColon input
      let (value, input) ← item input
      let (others, rest) ← pairs item turns false input
      return ((key, value) :: others, rest)

/-- Reads the entries of a map, as they stand. -/
def entries (item : Option (Reader α)) : Reader (List (String × α)) := fun input =>
  match dropBlanks input with
  | .char '{' :: rest =>
    match item with
    | some item => pairs item (rest.length + 1) true rest
    | none => .error (.next .recursionLimit (.char '{' :: rest))
  | input => .error (mismatch "a map" input)

theorem readEntries_eq_pairs (item : Reader α) : ∀ turns first (map : OrderedMap α) input,
    readEntries item turns first map input
      = (pairs item turns first input).map fun read =>
        (read.1.foldl (fun map entry => map.insert entry.1 entry.2) map, read.2)
  | 0, _, _, _ => rfl
  | turns + 1, first, map, input => by
    rw [readEntries, pairs]
    cases nextKey first input with
    | error fault => rfl
    | ok following =>
      cases following with
      | finished rest => rfl
      | more input =>
        dsimp only [bind, Except.bind]
        cases readText input with
        | error fault => rfl
        | ok keyed =>
          dsimp only
          cases readColon keyed.2 with
          | error fault => rfl
          | ok input =>
            dsimp only
            cases item input with
            | error fault => rfl
            | ok read =>
              dsimp only
              rw [readEntries_eq_pairs item turns false]
              cases pairs item turns false read.2 with
              | error fault => rfl
              | ok others => rfl

theorem map_of_no_object (item : Option (Reader α)) {input : Input}
    (h : ∀ rest, dropBlanks input ≠ .char '{' :: rest) :
    map item input = .error (mismatch "a map" (dropBlanks input)) := by
  rw [map]
  split
  · exact absurd ‹_› (h _)
  · rfl

theorem entries_of_no_object (item : Option (Reader α)) {input : Input}
    (h : ∀ rest, dropBlanks input ≠ .char '{' :: rest) :
    entries item input = .error (mismatch "a map" (dropBlanks input)) := by
  rw [entries]
  split
  · exact absurd ‹_› (h _)
  · rfl

/-- A map is read by putting its entries into it one after the other. -/
theorem map_eq_collect (item : Option (Reader α)) (input : Input) :
    map item input = (entries item input).map fun read => (OrderedMap.collect read.1, read.2) := by
  by_cases hobject : ∃ rest, dropBlanks input = .char '{' :: rest
  · obtain ⟨rest, hrest⟩ := hobject
    rw [map, entries, hrest]
    cases item with
    | none => rfl
    | some item => exact readEntries_eq_pairs item _ true ∅ rest
  · have hnone := not_exists.mp hobject
    rw [map_of_no_object item hnone, entries_of_no_object item hnone]
    rfl

/-! ### Records seen through a map -/

/-- Two fields of the same key, of which the second does to the image of a
record what the first does to the record. -/
structure Slot.Through (f : α → β) (slot : Slot α) (slot' : Slot β) : Prop where
  key : slot'.key = slot.key
  required : slot'.required = slot.required
  read : ∀ input,
    (∃ fault, slot.read input = .error fault ∧ slot'.read input = .error fault) ∨
    ∃ set set' rest, slot.read input = .ok (set, rest) ∧ slot'.read input = .ok (set', rest) ∧
      ∀ value, set' (f value) = f (set value)

section Through

variable {f : α → β}

/-- What is read of a field in two ways, if the second is the first through a map. -/
theorem through_required {key : String} {item : Reader γ} {item' : Reader δ} {g : γ → δ}
    {set : γ → α → α} {set' : δ → β → β}
    (hitem : ∀ input, item' input = (item input).map fun read => (g read.1, read.2))
    (hset : ∀ part value, set' (g part) (f value) = f (set part value)) :
    Slot.Through f (required key item set) (required key item' set') := by
  refine ⟨rfl, rfl, fun input => ?_⟩
  have hitem := hitem input
  simp only [Json.required, hitem]
  cases item input with
  | error fault => exact .inl ⟨fault, rfl, rfl⟩
  | ok read => exact .inr ⟨_, _, read.2, rfl, rfl, hset read.1⟩

theorem through_optionalField {key : String} {item : Reader γ} {item' : Reader δ} {g : γ → δ}
    {set : γ → α → α} {set' : δ → β → β}
    (hitem : ∀ input, item' input = (item input).map fun read => (g read.1, read.2))
    (hset : ∀ part value, set' (g part) (f value) = f (set part value)) :
    Slot.Through f (optionalField key item set) (optionalField key item' set') := by
  have hrequired : Slot.Through f (required key item set) (required key item' set') :=
    through_required hitem hset
  exact ⟨rfl, rfl, hrequired.read⟩

/-- A search by key finds the same field on both sides. -/
theorem find?_through {slots : List (Slot α)} {slots' : List (Slot β)}
    (h : List.Forall₂ (Slot.Through f) slots slots') (p : String → Bool → Bool) :
    (slots.find? (fun slot => p slot.key slot.required) = none ∧
      slots'.find? (fun slot => p slot.key slot.required) = none) ∨
    ∃ slot slot', slots.find? (fun slot => p slot.key slot.required) = some slot ∧
      slots'.find? (fun slot => p slot.key slot.required) = some slot' ∧ slot.Through f slot' := by
  induction h with
  | nil => exact .inl ⟨rfl, rfl⟩
  | @cons slot slot' slots slots' hslot _ ih =>
    rw [List.find?_cons, List.find?_cons, hslot.key, hslot.required]
    cases p slot.key slot.required with
    | true => exact .inr ⟨slot, slot', rfl, rfl, hslot⟩
    | false => exact ih

variable {slots : List (Slot α)} {slots' : List (Slot β)}

theorem readFields_through (h : List.Forall₂ (Slot.Through f) slots slots') :
    ∀ turns first seen value input, readFields slots' turns first seen (f value) input
      = (readFields slots turns first seen value input).map fun read => (f read.1, read.2)
  | 0, _, _, _, _ => rfl
  | turns + 1, first, seen, value, input => by
    rw [readFields, readFields]
    cases nextKey first input with
    | error fault => rfl
    | ok following =>
      cases following with
      | finished rest =>
        dsimp only [bind, Except.bind]
        rcases find?_through h fun key required => required && !seen.contains key with
          ⟨hnone, hnone'⟩ | ⟨slot, slot', hsome, hsome', hslot⟩
        · rw [hnone, hnone']
          rfl
        · rw [hsome, hsome']
          dsimp only
          rw [hslot.key]
          rfl
      | more input =>
        dsimp only [bind, Except.bind]
        cases readText input with
        | error fault => rfl
        | ok keyed =>
          obtain ⟨key, input⟩ := keyed
          dsimp only
          rcases find?_through h fun other _ => decide (other = key) with
            ⟨hnone, hnone'⟩ | ⟨slot, slot', hsome, hsome', hslot⟩
          · rw [hnone, hnone']
            dsimp only
            cases readColon input with
            | error fault => rfl
            | ok input =>
              dsimp only
              cases skipValue input with
              | error fault => rfl
              | ok input => exact readFields_through h turns false seen value input
          · rw [hsome, hsome']
            dsimp only
            split
            · rfl
            cases readColon input with
            | error fault => rfl
            | ok input =>
              dsimp only
              rcases hslot.read input with ⟨fault, hread, hread'⟩ |
                ⟨set, set', rest, hread, hread', hset⟩
              · rw [hread, hread']
                rfl
              · rw [hread, hread']
                dsimp only
                rw [hset]
                exact readFields_through h turns false _ _ _

theorem beforeRequired_through (h : List.Forall₂ (Slot.Through f) slots slots') :
    beforeRequired slots' = beforeRequired slots := by
  induction h with
  | nil => rfl
  | cons hslot _ ih =>
    rw [beforeRequired, beforeRequired, List.findIdx?_cons, List.findIdx?_cons, hslot.required]
    rw [beforeRequired, beforeRequired] at ih
    rw [ih]

theorem readValues_through {expected : String} :
    ∀ {slots : List (Slot α)} {slots' : List (Slot β)},
      List.Forall₂ (Slot.Through f) slots slots' → ∀ read value input,
      readValues expected slots' read (f value) input
        = (readValues expected slots read value input).map fun read => (f read.1, read.2)
  | [], [], .nil, _, value, input => by
    rw [readValues, readValues]
    cases readListEnd input with
    | error fault => rfl
    | ok rest => rfl
  | slot :: slots, slot' :: slots', .cons hslot hslots, read, value, input => by
    have hbefore : beforeRequired (slot' :: slots') = beforeRequired (slot :: slots) :=
      beforeRequired_through (.cons hslot hslots)
    rw [readValues, readValues]
    cases nextElement (read == 0) input with
    | error fault => rfl
    | ok following =>
      cases following with
      | finished rest =>
        dsimp only [bind, Except.bind]
        rw [hbefore]
        cases beforeRequired (slot :: slots) with
        | none => rfl
        | some further => rfl
      | more input =>
        dsimp only [bind, Except.bind]
        rcases hslot.read input with ⟨fault, hread, hread'⟩ |
          ⟨set, set', rest, hread, hread', hset⟩
        · rw [hread, hread']
          rfl
        · rw [hread, hread']
          dsimp only
          rw [hset]
          exact readValues_through hslots _ _ _

/-- A record that is read through a map is read as the image of the record. -/
theorem record_through {name : String} {empty : α} {slots : List (Slot α)}
    {slots' : List (Slot β)} (h : List.Forall₂ (Slot.Through f) slots slots') (input : Input) :
    record name (f empty) (some slots') input
      = (record name empty (some slots) input).map fun read => (f read.1, read.2) := by
  rw [record, record]
  generalize dropBlanks input = input
  split
  · exact readFields_through h _ true [] empty _
  · dsimp only
    rw [← h.length_eq]
    exact readValues_through h 0 empty _
  · rfl

theorem readDocument_through {reader : Reader α} {reader' : Reader β} {input : Input}
    (h : reader' input = (reader input).map fun read => (f read.1, read.2)) (medium : Medium) :
    readDocument reader' medium input = (readDocument reader medium input).map f := by
  rw [readDocument, readDocument, document, document, h]
  cases reader input with
  | error fault => rfl
  | ok read =>
    dsimp only [bind, Except.bind, Except.map]
    split <;> rfl

end Through

end Json

end Pagewright
