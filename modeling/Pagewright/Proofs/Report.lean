/-
Computations that report the first of several failures.

`Reports result failures` ties a computation to the list of everything that
it could find fault with: it succeeds if the list is empty and fails with the
first entry otherwise.  Such computations are put together in the order of
their lists:

* `reports_head?` — a search for the first failure;
* `Reports.bind` — one after the other, the second also from a value;
* `reports_mapM` — one for every entry of a list;
* `Reports.ok_iff`, `Reports.error_iff` — the two outcomes, read off the list.

`bind_eq_ok`, `map_eq_ok` and `forall₂_of_mapM_ok` take a computation that
succeeded apart, and `mapM_eq_error_iff` one that failed.
-/
import Mathlib.Data.List.Forall2
import Pagewright.Failure

namespace Pagewright

variable {α β ε : Type}

theorem bind_eq_ok {first : Except ε α} {second : α → Except ε β} {result : β}
    (h : first >>= second = .ok result) :
    ∃ value, first = .ok value ∧ second value = .ok result := by
  cases first with
  | ok value => exact ⟨value, rfl, h⟩
  | error _ => exact absurd h (by simp [bind, Except.bind])

theorem map_eq_ok {f : α → β} {computed : Except ε α} {result : β}
    (h : computed.map f = .ok result) : ∃ value, computed = .ok value ∧ f value = result := by
  cases computed with
  | ok value => exact ⟨value, rfl, Except.ok.inj h⟩
  | error _ => cases h

theorem map_eq_error {f : α → β} {computed : Except ε α} {failure : ε}
    (h : computed.map f = .error failure) : computed = .error failure := by
  cases computed with
  | ok _ => cases h
  | error _ => rw [Except.error.inj h]

theorem eq_ok_of_toOption {result : Except ε α} {value : α} (h : result.toOption = some value) :
    result = .ok value := by
  cases result with
  | error _ => cases h
  | ok other => rw [Option.some.inj h]

theorem exists_error_of_toOption {result : Except ε α} (h : result.toOption = none) :
    ∃ failure, result = .error failure := by
  cases result with
  | error failure => exact ⟨failure, rfl⟩
  | ok value => cases h

/-- A computation for all entries of a list that succeeded has succeeded for each
of them. -/
theorem forall₂_of_mapM_ok {f : α → Except ε β} :
    ∀ {entries : List α} {results : List β}, entries.mapM f = .ok results →
      List.Forall₂ (fun entry result => f entry = .ok result) entries results
  | [], results, h => by
    obtain rfl : [] = results := Except.ok.inj h
    exact .nil
  | entry :: entries, results, h => by
    rw [List.mapM_cons] at h
    obtain ⟨result, hresult, h⟩ := bind_eq_ok h
    obtain ⟨later, hlater, h⟩ := bind_eq_ok h
    obtain rfl : result :: later = results := Except.ok.inj h
    exact .cons hresult (forall₂_of_mapM_ok hlater)

/-- In lists that are related entry by entry, no entry stands alone. -/
theorem exists_of_forall₂ {R : α → β → Prop} {entries : List α} {results : List β} {entry : α}
    (h : List.Forall₂ R entries results) (hmem : entry ∈ entries) :
    ∃ result ∈ results, R entry result := by
  induction h with
  | nil => cases hmem
  | @cons first result _ _ hfirst _ ih =>
    rcases List.mem_cons.mp hmem with rfl | hmem
    · exact ⟨result, List.mem_cons_self, hfirst⟩
    · obtain ⟨found, hfound, hentry⟩ := ih hmem
      exact ⟨found, List.mem_cons_of_mem _ hfound, hentry⟩

/-- What a computation yields for one entry of a list is among what it yields
for all of them. -/
theorem exists_of_mapM_ok {f : α → Except ε β} {entry : α} {entries : List α}
    {results : List β} (h : entries.mapM f = .ok results) (hmem : entry ∈ entries) :
    ∃ result ∈ results, f entry = .ok result :=
  exists_of_forall₂ (forall₂_of_mapM_ok h) hmem

/-- What is computed for all entries of a list fails as it does for the first
entry for which it fails. -/
theorem mapM_eq_error_iff {f : α → Except ε β} {failure : ε} {entries : List α} :
    entries.mapM f = .error failure ↔
      ∃ before entry after, entries = before ++ entry :: after ∧
        (∀ other ∈ before, ∃ result, f other = .ok result) ∧ f entry = .error failure := by
  induction entries with
  | nil =>
    constructor
    · exact fun h => nomatch h
    · rintro ⟨before, entry, after, hentries, -⟩
      exact absurd hentries.symm (by simp)
  | cons first rest ih =>
    rw [List.mapM_cons]
    constructor
    · intro h
      cases hfirst : f first with
      | error failure' =>
        rw [hfirst] at h
        obtain rfl : failure' = failure := Except.error.inj h
        exact ⟨[], first, rest, rfl, fun _ hmem => absurd hmem List.not_mem_nil, hfirst⟩
      | ok result =>
        rw [hfirst] at h
        cases hrest : rest.mapM f with
        | error failure' =>
          rw [hrest] at h
          obtain rfl : failure' = failure := Except.error.inj h
          obtain ⟨before, entry, after, rfl, hbefore, hentry⟩ := ih.mp hrest
          exact ⟨first :: before, entry, after, rfl,
            List.forall_mem_cons.mpr ⟨⟨result, hfirst⟩, hbefore⟩, hentry⟩
        | ok results =>
          rw [hrest] at h
          cases h
    · rintro ⟨before, entry, after, hentries, hbefore, hentry⟩
      cases before with
      | nil =>
        obtain ⟨rfl, rfl⟩ := List.cons.inj hentries
        rw [hentry]
        rfl
      | cons other before =>
        obtain ⟨rfl, rfl⟩ := List.cons.inj hentries
        obtain ⟨⟨result, hresult⟩, hbefore⟩ := List.forall_mem_cons.mp hbefore
        rw [hresult, ih.mpr ⟨before, entry, after, rfl, hbefore, hentry⟩]
        rfl

/-- A computation succeeds if nothing is wrong and fails with the first of
the things that are. -/
def Reports (result : Except Failure α) (failures : List Failure) : Prop :=
  match failures with
  | [] => ∃ value, result = .ok value
  | failure :: _ => result = .error failure

theorem reports_ok (value : α) : Reports (.ok value) [] :=
  ⟨value, rfl⟩

theorem reports_error (failure : Failure) (rest : List Failure) :
    Reports (.error failure : Except Failure α) (failure :: rest) :=
  rfl

/-- A search for the first failure. -/
theorem reports_head? {failure? : Option Failure} {failures : List Failure}
    (h : failure? = failures.head?) :
    Reports (match failure? with
      | some failure => .error failure
      | none => .ok ()) failures := by
  subst h
  cases failures with
  | nil => exact reports_ok ()
  | cons failure rest => exact reports_error failure rest

/-- The failures of the second computation count only where the first one
yields a value. -/
theorem Reports.bind {first : Except Failure α} {second : α → Except Failure β}
    {failures failures' : List Failure} (h : Reports first failures)
    (h' : ∀ value, first = .ok value → Reports (second value) failures') :
    Reports (first >>= second) (failures ++ failures') := by
  cases failures with
  | nil =>
    obtain ⟨value, hv⟩ := h
    rw [hv]
    exact h' value hv
  | cons failure rest =>
    have hf : first = .error failure := h
    rw [hf]
    rfl

theorem Reports.map {result : Except Failure α} {f : α → β} {failures : List Failure}
    (h : Reports result failures) : Reports (result >>= fun value => .ok (f value)) failures := by
  rw [← List.append_nil failures]
  exact h.bind fun value _ => reports_ok (f value)

/-- A check of every entry of a list reports what the checks report, in
order. -/
theorem reports_mapM {check : α → Except Failure β} {failures : α → List Failure}
    (h : ∀ a, Reports (check a) (failures a)) (entries : List α) :
    Reports (entries.mapM check) (entries.flatMap failures) := by
  induction entries with
  | nil => exact reports_ok []
  | cons a rest ih =>
    rw [List.mapM_cons, List.flatMap_cons]
    exact (h a).bind fun b _ => ih.map

theorem Reports.ok_iff {result : Except Failure α} {failures : List Failure}
    (h : Reports result failures) : (∃ value, result = .ok value) ↔ failures = [] := by
  cases failures with
  | nil => exact ⟨fun _ => rfl, fun _ => h⟩
  | cons failure rest =>
    have hf : result = .error failure := h
    simp [hf]

theorem Reports.error_iff {result : Except Failure α} {failures : List Failure}
    (h : Reports result failures) (failure : Failure) :
    result = .error failure ↔ failures.head? = some failure := by
  cases failures with
  | nil =>
    obtain ⟨value, hv⟩ := h
    simp [hv]
  | cons first rest =>
    have hf : result = .error first := h
    simp [hf]

end Pagewright
