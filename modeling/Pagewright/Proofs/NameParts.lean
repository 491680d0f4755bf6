/-
Names in Pascal case, from the parts of a name.

`HasParts` says what the parts of a name are, and not how to find them: the longest
runs of letters and digits, with nothing but separators around them.

* `hasParts_iff` — every name has parts, and no others;
* `pascalCase_eq_ofParts` — a name in Pascal case is made of them, so that
  separators count only as the borders of parts.
-/
import Pagewright.Proofs.Identifiers

namespace Pagewright.Kotlin

/-- The parts of a name, in order.  A part ends where the name does, or at a
separator. -/
inductive HasParts : List Char → List (List Char) → Prop
  | nil : HasParts [] []
  | separator {c : Char} {name : List Char} {parts : List (List Char)}
      (hc : Text.isAlphanumeric c = false) (h : HasParts name parts) : HasParts (c :: name) parts
  | part {part rest : List Char} {parts : List (List Char)} (hne : part ≠ [])
      (hword : ∀ c ∈ part, Text.isAlphanumeric c = true)
      (hend : ∀ c ∈ rest.head?, Text.isAlphanumeric c = false) (h : HasParts rest parts) :
      HasParts (part ++ rest) (part :: parts)

/-- The name in Pascal case that parts give. -/
def ofParts (parts : List (List Char)) : String :=
  let joined := parts.flatMap capitalize
  if parts = [] then "Page"
  else if joined.head?.any Char.isDigit then "_" ++ String.ofList joined
  else String.ofList joined

/-- A text of separators. -/
def Gap (gap : String) : Prop :=
  ∀ c ∈ gap.toList, Text.isAlphanumeric c = false

instance (gap : String) : Decidable (Gap gap) :=
  decidable_of_iff (gap.toList.all (!Text.isAlphanumeric ·) = true) (by simp [Gap])

variable {c : Char} {name before after gap part : List Char} {parts : List (List Char)}

/-! ### The parts of a name -/

/-- No part reaches across a separator. -/
theorem nameParts_append_cons (hc : Text.isAlphanumeric c = false) (before after : List Char) :
    nameParts (before ++ c :: after) = nameParts before ++ nameParts after := by
  rw [nameParts, List.splitOnP_append_cons before after (by rw [hc]; rfl), List.filter_append]
  rfl

theorem nameParts_cons (hc : Text.isAlphanumeric c = false) (name : List Char) :
    nameParts (c :: name) = nameParts name :=
  nameParts_append_cons hc [] name

theorem nameParts_of_word (hne : part ≠ [])
    (hword : ∀ c ∈ part, Text.isAlphanumeric c = true) : nameParts part = [part] := by
  have hsplit : part.splitOnP (!Text.isAlphanumeric ·) = [part] :=
    List.splitOnP_eq_singleton fun c hc => by rw [hword c hc]; rfl
  rw [nameParts, hsplit, List.filter_cons_of_pos (by simpa using hne), List.filter_nil]

theorem HasParts.eq_nameParts (h : HasParts name parts) : parts = nameParts name := by
  induction h with
  | nil => rfl
  | separator hc _ ih => rw [nameParts_cons hc, ih]
  | @part part rest parts hne hword hend _ ih =>
    cases rest with
    | nil =>
      rw [ih, List.append_nil, nameParts_of_word hne hword]
      rfl
    | cons d rest =>
      have hd : Text.isAlphanumeric d = false := hend d rfl
      rw [ih, nameParts_append_cons hd, nameParts_of_word hne hword, nameParts_cons hd,
        List.singleton_append]

/-- One more letter or digit begins a part, or stands in front of the first one. -/
theorem HasParts.exists_cons (h : HasParts name parts) (c : Char) :
    ∃ parts', HasParts (c :: name) parts' := by
  cases hc : Text.isAlphanumeric c with
  | false => exact ⟨parts, .separator hc h⟩
  | true =>
    have hsingle : ∀ d ∈ [c], Text.isAlphanumeric d = true := by simpa using hc
    cases h with
    | nil => exact ⟨[[c]], .part (List.cons_ne_nil c []) hsingle nofun .nil⟩
    | @separator d name _ hd h =>
      have hend : ∀ e ∈ (d :: name).head?, Text.isAlphanumeric e = false := by
        rintro e ⟨⟩
        exact hd
      exact ⟨[c] :: parts, .part (List.cons_ne_nil c []) hsingle hend (.separator hd h)⟩
    | @part part rest parts hne hword hend h =>
      have hword' : ∀ d ∈ c :: part, Text.isAlphanumeric d = true := by
        rw [List.forall_mem_cons]
        exact ⟨hc, hword⟩
      exact ⟨(c :: part) :: parts, .part (List.cons_ne_nil c part) hword' hend h⟩

theorem exists_hasParts (name : List Char) : ∃ parts, HasParts name parts := by
  induction name with
  | nil => exact ⟨[], .nil⟩
  | cons c name ih =>
    obtain ⟨parts, h⟩ := ih
    exact h.exists_cons c

theorem hasParts_iff : HasParts name parts ↔ parts = nameParts name := by
  refine ⟨HasParts.eq_nameParts, ?_⟩
  rintro rfl
  obtain ⟨parts, h⟩ := exists_hasParts name
  exact h.eq_nameParts ▸ h

instance (name : List Char) (parts : List (List Char)) : Decidable (HasParts name parts) :=
  decidable_of_iff _ hasParts_iff.symm

/-! ### Separators -/

theorem nameParts_gap_append (h : ∀ c ∈ gap, Text.isAlphanumeric c = false)
    (after : List Char) : nameParts (gap ++ after) = nameParts after := by
  induction gap with
  | nil => rfl
  | cons c gap ih =>
    rw [List.forall_mem_cons] at h
    rw [List.cons_append, nameParts_cons h.1, ih h.2]

theorem nameParts_append_gap_append (h : ∀ c ∈ gap, Text.isAlphanumeric c = false)
    (hne : gap ≠ []) (before after : List Char) :
    nameParts (before ++ gap ++ after) = nameParts before ++ nameParts after := by
  obtain ⟨c, gap, rfl⟩ := List.exists_cons_of_ne_nil hne
  rw [List.forall_mem_cons] at h
  rw [List.append_assoc, List.cons_append, nameParts_append_cons h.1, nameParts_gap_append h.2]

theorem nameParts_append_gap (h : ∀ c ∈ gap, Text.isAlphanumeric c = false)
    (before : List Char) : nameParts (before ++ gap) = nameParts before := by
  by_cases hne : gap = []
  · rw [hne, List.append_nil]
  · have hparts := nameParts_append_gap_append h hne before []
    rw [List.append_nil] at hparts
    rw [hparts]
    exact List.append_nil _

/-! ### Pascal case -/

theorem pascalCase_eq_ofParts_nameParts (name : String) :
    pascalCase name = ofParts (nameParts name.toList) := by
  cases hparts : nameParts name.toList with
  | nil =>
    rw [pascalCase, joinParts_eq, hparts]
    rfl
  | cons part parts =>
    obtain ⟨c, rest, rfl, -, -⟩ := exists_of_mem_nameParts (hparts ▸ List.mem_cons_self)
    obtain ⟨u, tail, hjoin, -, -, -⟩ := exists_joinParts_eq_cons hparts
    have hjoined : ((c :: rest) :: parts).flatMap capitalize = u :: tail := by
      rw [← hjoin, joinParts_eq, hparts]
    rw [pascalCase, hjoin, ofParts, if_neg (List.cons_ne_nil _ parts), hjoined]
    cases hdigit : u.isDigit with
    | false => simp [hdigit]
    | true => simp [hdigit, String.ofList_cons]

theorem pascalCase_congr {name other : String}
    (h : nameParts name.toList = nameParts other.toList) : pascalCase name = pascalCase other := by
  rw [pascalCase_eq_ofParts_nameParts, pascalCase_eq_ofParts_nameParts, h]

/-- **A name in Pascal case is made of the parts of the name.**  Each part has its
first character in upper case, whatever that is, and the rest of it as it was; where
there is no part it is `Page`, and an underscore goes in front of an ASCII digit.
Separators around the name and the number and choice of those in it do not matter. -/
theorem pascalCase_eq_ofParts (name : String) :
    (∃! parts, HasParts name.toList parts) ∧
    (∀ parts, HasParts name.toList parts → pascalCase name = ofParts parts) ∧
    (∀ before after, Gap before → Gap after →
      pascalCase (before ++ name ++ after) = pascalCase name) ∧
    ∀ later gap gap', Gap gap → Gap gap' → gap ≠ "" → gap' ≠ "" →
      pascalCase (name ++ gap ++ later) = pascalCase (name ++ gap' ++ later) := by
  refine ⟨?_, ?_, ?_, ?_⟩
  · exact ⟨nameParts name.toList, hasParts_iff.mpr rfl, fun _ h => h.eq_nameParts⟩
  · intro parts h
    rw [pascalCase_eq_ofParts_nameParts, h.eq_nameParts]
  · intro before after hbefore hafter
    apply pascalCase_congr
    rw [String.toList_append, String.toList_append, nameParts_append_gap hafter,
      nameParts_gap_append hbefore]
  · intro later gap gap' hgap hgap' hne hne'
    apply pascalCase_congr
    simp only [String.toList_append]
    rw [nameParts_append_gap_append hgap (by simpa using hne),
      nameParts_append_gap_append hgap' (by simpa using hne')]

/-- Parts that begin with a digit, with a letter whose upper case is two letters, and
with a digit that is not an ASCII digit. -/
theorem pascalCase_eq_ofParts_mixed :
    HasParts "2fa__ßeta-٣d".toList ["2fa".toList, "ßeta".toList, "٣d".toList] ∧
    Gap "-- " ∧ Gap "__" ∧ Gap "-" ∧ "__" ≠ "" ∧ "-" ≠ "" ∧
    pascalCase "2fa__ßeta-٣d" = "_2faSSeta٣d" ∧
    pascalCase "-- 2fa__ßeta-٣d-- " = "_2faSSeta٣d" ∧
    pascalCase "2fa__ßeta-٣d" = pascalCase "2fa-ßeta-٣d" := by
  have hparts : HasParts "2fa__ßeta-٣d".toList ["2fa".toList, "ßeta".toList, "٣d".toList] := by
    decide +kernel
  have hblank : Gap "-- " := by decide +kernel
  have hunder : Gap "__" := by decide +kernel
  have hdash : Gap "-" := by decide +kernel
  obtain ⟨-, hname, hgaps, -⟩ := pascalCase_eq_ofParts "2fa__ßeta-٣d"
  obtain ⟨-, -, -, hchoice⟩ := pascalCase_eq_ofParts "2fa"
  have hpascal : pascalCase "2fa__ßeta-٣d" = "_2faSSeta٣d" :=
    (hname _ hparts).trans (by decide +kernel)
  refine ⟨hparts, hblank, hunder, hdash, by decide, by decide, hpascal, ?_, ?_⟩
  · exact (hgaps "-- " "-- " hblank hblank).trans hpascal
  · exact hchoice "ßeta-٣d" "__" "-" hunder hdash (by decide) (by decide)

end Pagewright.Kotlin
