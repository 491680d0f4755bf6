/-
What readers yield, whatever they are given.

`Yields reader P` says that every result of a reader has a property, from
whatever text it was read.  A reader of a value with parts yields what its
readers of parts do, and only where a bracket may still be opened.

* `Yields.list` — lists, from their elements;
* `Yields.record` — records, written as objects or as lists, from the fields
  that are read, in whatever order they come;
* `Yields.document` — the value of a whole document.
-/
import Pagewright.Json.Reader
import Pagewright.Proofs.Report

namespace Pagewright.Json

variable {α β : Type} {depth : Nat}

/-- All results of a reader have a property. -/
def Yields (reader : Reader α) (P : α → Prop) : Prop :=
  ∀ input value rest, reader input = .ok (value, rest) → P value

theorem Yields.imp {reader : Reader α} {P Q : α → Prop} (h : Yields reader P)
    (himp : ∀ value, P value → Q value) : Yields reader Q :=
  fun input value rest hread => himp value (h input value rest hread)

theorem yields_true (reader : Reader α) : Yields reader fun _ => True :=
  fun _ _ _ _ => trivial

/-! ### Lists -/

theorem Yields.readElements {item : Reader α} {P : α → Prop} (h : Yields item P) :
    ∀ turns first, Yields (readElements item turns first) fun values => ∀ value ∈ values, P value
  | 0, _, _, _, _, hread => by cases hread
  | turns + 1, first, input, values, rest, hread => by
    rw [Json.readElements] at hread
    obtain ⟨following, -, hread⟩ := bind_eq_ok hread
    cases following with
    | finished =>
      cases hread
      exact fun _ hmem => absurd hmem List.not_mem_nil
    | more input =>
      obtain ⟨⟨value, middle⟩, hvalue, hread⟩ := bind_eq_ok hread
      obtain ⟨⟨others, last⟩, hothers, hread⟩ := bind_eq_ok hread
      cases hread
      exact List.forall_mem_cons.mpr
        ⟨h _ _ _ hvalue, Yields.readElements h turns false _ _ _ hothers⟩

theorem Yields.list {item : Nat → Reader α} {P : Nat → α → Prop}
    (h : ∀ inner, depth = inner + 1 → Yields (item inner) (P inner)) :
    Yields (list (within item depth)) fun values =>
      ∃ inner, depth = inner + 1 ∧ ∀ value ∈ values, P inner value := by
  intro input values rest hread
  rw [Json.list] at hread
  split at hread
  · cases depth with
    | zero => cases hread
    | succ inner => exact ⟨inner, rfl, (h inner rfl).readElements _ _ _ _ _ hread⟩
  · cases hread

/-! ### Records -/

/-- Whatever a slot reads keeps a property of the record. -/
def Slot.Keeps (slot : Slot α) (P : α → Prop) : Prop :=
  Yields slot.read fun set => ∀ value, P value → P (set value)

theorem keeps_required {item : Reader β} {Q : β → Prop} {P : α → Prop} {key : String}
    {set : β → α → α} (h : Yields item Q)
    (hset : ∀ part value, Q part → P value → P (set part value)) :
    (required key item set).Keeps P := by
  intro input filled rest hread
  obtain ⟨⟨part, middle⟩, hpart, hread⟩ := bind_eq_ok hread
  cases hread
  exact fun value hvalue => hset part value (h _ _ _ hpart) hvalue

theorem keeps_optionalField {item : Reader β} {Q : β → Prop} {P : α → Prop} {key : String}
    {set : β → α → α} (h : Yields item Q)
    (hset : ∀ part value, Q part → P value → P (set part value)) :
    (optionalField key item set).Keeps P :=
  show (required key item set).Keeps P from keeps_required h hset

section Records

variable {slots : List (Slot α)} {P : α → Prop}

/-- In an object the fields come in any order, among entries of other keys. -/
theorem yields_readFields (h : ∀ slot ∈ slots, slot.Keeps P) :
    ∀ turns first seen value, P value → Yields (readFields slots turns first seen value) P
  | 0, _, _, _, _, _, _, _, hread => by cases hread
  | turns + 1, first, seen, value, hvalue, input, result, rest, hread => by
    rw [readFields] at hread
    obtain ⟨following, -, hread⟩ := bind_eq_ok hread
    cases following with
    | finished =>
      dsimp only at hread
      split at hread
      · cases hread
      · cases hread
        exact hvalue
    | more input =>
      obtain ⟨⟨key, keyed⟩, -, hread⟩ := bind_eq_ok hread
      dsimp only at hread
      split at hread
      · obtain ⟨_, -, hread⟩ := bind_eq_ok hread
        obtain ⟨_, -, hread⟩ := bind_eq_ok hread
        exact yields_readFields h turns false seen value hvalue _ _ _ hread
      · rename_i slot hslot
        split at hread
        · cases hread
        obtain ⟨_, -, hread⟩ := bind_eq_ok hread
        obtain ⟨⟨set, _⟩, hset, hread⟩ := bind_eq_ok hread
        have hkept := h slot (List.mem_of_find?_eq_some hslot) _ _ _ hset value hvalue
        exact yields_readFields h turns false _ _ hkept _ _ _ hread

/-- In a list they come in their own order, and the last ones may be missing. -/
theorem yields_readValues {expected : String} :
    ∀ {slots : List (Slot α)}, (∀ slot ∈ slots, slot.Keeps P) →
      ∀ read value, P value → Yields (readValues expected slots read value) P
  | [], _, _, value, hvalue, input, result, rest, hread => by
    rw [readValues] at hread
    obtain ⟨_, -, hread⟩ := bind_eq_ok hread
    cases hread
    exact hvalue
  | slot :: slots, h, read, value, hvalue, input, result, rest, hread => by
    rw [readValues] at hread
    obtain ⟨following, -, hread⟩ := bind_eq_ok hread
    cases following with
    | finished =>
      dsimp only at hread
      split at hread
      · cases hread
      · cases hread
        exact hvalue
    | more input =>
      obtain ⟨⟨set, _⟩, hset, hread⟩ := bind_eq_ok hread
      have hkept := h slot List.mem_cons_self _ _ _ hset value hvalue
      exact yields_readValues (fun slot hmem => h slot (List.mem_cons_of_mem _ hmem)) _ _ hkept
        _ _ _ hread

end Records

/-- A record has what its fields keep and what holds of it without any of them. -/
theorem Yields.record {name : String} {empty : α} {slots : Nat → List (Slot α)}
    {P : Nat → α → Prop} (hempty : ∀ inner, P inner empty)
    (h : ∀ inner, depth = inner + 1 → ∀ slot ∈ slots inner, slot.Keeps (P inner)) :
    Yields (record name empty (within slots depth)) fun value =>
      ∃ inner, depth = inner + 1 ∧ P inner value := by
  intro input value rest hread
  rw [Json.record] at hread
  split at hread
  · cases depth with
    | zero => cases hread
    | succ inner =>
      exact ⟨inner, rfl, yields_readFields (h inner rfl) _ _ _ _ (hempty inner) _ _ _ hread⟩
  · cases depth with
    | zero => cases hread
    | succ inner =>
      exact ⟨inner, rfl, yields_readValues (h inner rfl) _ _ (hempty inner) _ _ _ hread⟩
  · cases hread

/-! ### Documents -/

theorem Yields.document {reader : Reader α} {P : α → Prop} (h : Yields reader P) {medium : Medium}
    {input : Input} {value : α} (hread : readDocument reader medium input = .ok value) :
    P value := by
  rw [readDocument, Json.document] at hread
  cases hreader : reader input with
  | error fault =>
    rw [hreader] at hread
    cases hread
  | ok read =>
    obtain ⟨result, rest⟩ := read
    rw [hreader] at hread
    dsimp only [bind, Except.bind] at hread
    split at hread
    · cases hread
      exact h _ _ _ hreader
    · cases hread

end Pagewright.Json
