/-
Texts with a binding in place of a scope.

Marking a scope in a text and rendering the text again comes to the same as
replacing the scope: by what the standard library does with `String.replace`,
and by putting the replacement at all places where the scope is found.

* `replace_eq` — replacing a word is rendering with that word as the scope;
* `ScopedText.render_replaces` — rendering replaces the scope, gives back a text
  whose scope is the binding, and leaves a text alone if the scope is empty;
* `ScopedText.members_named` — the members of a text are the longest words behind
  the places that rendering replaces.
-/
import Mathlib.Data.List.Forall2
import Pagewright.Proofs.Occurrences

namespace Pagewright

/-! ### Replacing by the standard library -/

section Replace

open String String.Slice.Pattern.Model

variable {scope : String} {s : Slice}

/-- What stands between two positions of a text. -/
theorem exists_between {start stop : s.Pos} {before after : String} (hlt : start < stop)
    (h : start.Splits before after) :
    ∃ between rest, after = between ++ rest ∧ stop.Splits (before ++ between) rest ∧
      (s.slice! start stop).copy = between := by
  obtain ⟨between, -, hbefore, hafter⟩ := (h.lt_iff_exists_eq_append stop.splits).mp hlt
  have hstop := stop.splits
  rw [hbefore] at hstop
  refine ⟨between, _, hafter, hstop, ?_⟩
  rw [hafter] at h
  obtain ⟨hle, hcopy⟩ := Slice.copy_slice_eq_iff_splits.mpr ⟨_, _, h, hstop⟩
  rw [← Slice.slice_eq_slice! (h := hle), hcopy]

/-- A text is cut behind some of its characters. -/
theorem exists_append_of_lt {k : Nat} {text : String} (h : k < text.toList.length) :
    ∃ front back : String, text = front ++ back ∧ front.toList.length = k ∧ back ≠ "" := by
  refine ⟨ofList (text.toList.take k), ofList (text.toList.drop k), ?_, ?_, ?_⟩
  · rw [← ofList_append, List.take_append_drop, ofList_toList]
  · rw [toList_ofList, List.length_take, Nat.min_eq_left (Nat.le_of_lt h)]
  · simpa using h

/-- Between two positions where the scope does not match, the pieces of a text
are its characters. -/
theorem scopePieces_of_not_matchesAt {start stop : s.Pos} {before between rest : String}
    (hstart : start.Splits before (between ++ rest)) (hstop : stop.Splits (before ++ between) rest)
    (h : ∀ position, start ≤ position → position < stop → ¬MatchesAt scope position) :
    scopePieces scope.toList 0 (between ++ rest).toList
      = between.toList.map .plain ++ scopePieces scope.toList 0 rest.toList := by
  rw [toList_append]
  refine scopePieces_append fun k hk hprefix => ?_
  obtain ⟨front, back, rfl, rfl, hback⟩ := exists_append_of_lt hk
  -- If the scope started behind `front`, it would match at this position.
  have hs : s.copy = (before ++ front) ++ (back ++ rest) := by
    rw [hstart.eq_append, append_assoc, append_assoc]
  have hposition := Slice.Pos.splits_ofEqAppend hs
  refine h (.ofEqAppend hs) ?_ ?_ ?_
  · exact (hstart.le_iff_exists_eq_append hposition).mpr ⟨front, rfl, append_assoc⟩
  · exact (hposition.lt_iff_exists_eq_append hstop).mpr ⟨back, hback, append_assoc.symm, rfl⟩
  · rw [toList_append, List.append_assoc, List.drop_left] at hprefix
    obtain ⟨later, hlater⟩ := hprefix
    have hrest : scope ++ ofList later = back ++ rest := by
      rw [← toList_inj, toList_append, toList_append, toList_ofList, hlater]
    refine ForwardStringSearcher.matchesAt_iff_splits.mpr ⟨before ++ front, ofList later, ?_⟩
    rwa [hrest]

/-- What replacing puts together while it searches for the scope from a position
on. -/
theorem foldl_search (hw : scope ≠ "") (replacement : String) {position : s.Pos}
    {steps : List (Slice.Pattern.SearchStep s)} (h : IsValidSearchFrom scope position steps) :
    ∀ {before after : String}, position.Splits before after → ∀ sofar : String,
      steps.foldl (fun
        | sofar, .matched .. => sofar ++ ToSlice.toSlice replacement
        | sofar, .rejected start stop => sofar ++ s.slice! start stop) sofar
      = sofar ++ ofList ((scopePieces scope.toList 0 after.toList).flatMap
        (ScopedText.renderPiece replacement.toList)) := by
  induction h with
  | endPos =>
    intro before after hsplits sofar
    rw [(Slice.splits_endPos_iff.mp hsplits).2]
    exact append_empty.symm
  | matched hmatch _ ih =>
    intro before after hsplits sofar
    obtain ⟨_, rest, hstart, hstop⟩ := ForwardStringSearcher.isLongestMatchAt_iff_splits.mp hmatch
    rw [hsplits.eq_right hstart, List.foldl_cons, ih hstop, toList_append,
      scopePieces_reference (by simpa using hw), List.flatMap_cons, ofList_append, ← append_assoc]
    simp [ScopedText.renderPiece, ToSlice.toSlice]
  | mismatched hlt hnone _ ih =>
    intro before after hsplits sofar
    obtain ⟨between, rest, rfl, hstop, hcopy⟩ := exists_between hlt hsplits
    rw [scopePieces_of_not_matchesAt hsplits hstop hnone, List.foldl_cons, ih hstop,
      List.flatMap_append, flatMap_plain, ofList_append, ofList_toList, ← append_assoc]
    simp [hcopy]

/-- To replace a word in a text is to render the text with the word as its
scope. -/
theorem replace_eq (hw : scope ≠ "") (text replacement : String) :
    text.replace scope replacement
      = ofList ((scopePieces scope.toList 0 text.toList).flatMap
        (ScopedText.renderPiece replacement.toList)) := by
  have hsearch := (ForwardStringSearcher.lawfulToForwardSearcherModel hw).isValidSearchFrom_toList
    text.toSlice
  have hfold := foldl_search hw replacement hsearch text.toSlice.splits_startPos ""
  rw [Std.Iter.foldl_toList, empty_append, copy_toSlice] at hfold
  exact hfold

end Replace

/-! ### Nothing is lost -/

/-- The empty scope is written nowhere. -/
theorem scopePieces_nil (text : List Char) : scopePieces [] 0 text = text.map .plain := by
  induction text with
  | nil => rfl
  | cons c text ih =>
    rw [scopePieces, ih]
    rfl

/-- A scope may be replaced by itself. -/
theorem replaceAt_self {scope text : List Char} {position : Nat} {starts : List Nat}
    (h : Found scope text position starts) :
    replaceAt scope scope.length text position starts = text.drop position := by
  induction h with
  | none => rfl
  | next hle hpre _ _ ih => rw [replaceAt, ih, ← drop_eq_of_prefix hle hpre]

/-! ### Members -/

/-- A word is the longest run of word characters in a text from a position
on. -/
structure IsWordAt (text : List Char) (position : Nat) (word : String) : Prop where
  stands : word.toList <+: text.drop position
  isWord : ∀ c ∈ word.toList, Text.isWordCharacter c = true
  longest : ∀ other : List Char, other <+: text.drop position →
    (∀ c ∈ other, Text.isWordCharacter c = true) → other.length ≤ word.toList.length

theorem isWordAt_wordAt (text : List Char) (position : Nat) :
    IsWordAt text position (wordAt text position) := by
  rw [wordAt]
  constructor
  · rw [String.toList_ofList]
    exact List.takeWhile_prefix _
  · rw [String.toList_ofList]
    exact fun c hc => List.all_eq_true.mp List.all_takeWhile c hc
  · rintro other ⟨rest, hrest⟩ hother
    rw [String.toList_ofList, ← hrest, List.takeWhile_append_of_pos hother, List.length_append]
    exact Nat.le_add_right _ _

namespace ScopedText

/-- **To render a text is to replace its scope.**  The scope is replaced at its
places from left to right, as the standard library does it, by the binding and a
dot or by nothing.  Nothing gets lost: a text whose scope is the binding and a
dot comes back, and so does every text if the scope is empty. -/
theorem render_replaces (text scope : String) :
    (scope ≠ "" →
      (∀ binding, (read text scope).render (some binding)
        = text.replace scope (binding ++ ".")) ∧
      (read text scope).render none = text.replace scope "" ∧
      ∃ starts, (∀ others, Found scope.toList text.toList 0 others ↔ others = starts) ∧
        ∀ binding?, (read text scope).render binding? = String.ofList
          (replaceAt (replacement binding?) scope.toList.length text.toList 0 starts)) ∧
    (∀ binding, scope = binding ++ "." → (read text scope).render (some binding) = text) ∧
    (scope = "" → ∀ binding?, (read text scope).render binding? = text) := by
  refine ⟨fun hw => ⟨fun binding => ?_, ?_, ?_⟩, ?_, ?_⟩
  · rw [render_eq, replace_eq hw, String.toList_append]
    rfl
  · rw [render_eq, replace_eq hw]
    rfl
  · obtain ⟨starts, hstarts⟩ := exists_places hw text
    exact ⟨starts, hstarts, render_of_found hw ((hstarts _).mpr rfl)⟩
  · rintro binding rfl
    have hw : binding ++ "." ≠ "" := by simp
    obtain ⟨starts, hstarts⟩ := exists_places hw text
    have hfound := (hstarts starts).mpr rfl
    have hscope : replacement (some binding) = (binding ++ ".").toList := by
      rw [String.toList_append]
      rfl
    rw [render_of_found hw hfound, hscope, replaceAt_self hfound, List.drop_zero,
      String.ofList_toList]
  · rintro rfl binding?
    rw [render_eq, String.toList_empty, scopePieces_nil, flatMap_plain, String.ofList_toList]

/-- A scope that overlaps with itself, a scope that is bound to itself, and a
scope that is empty. -/
theorem render_replaces_overlapping :
    "aa" ≠ "" ∧
    (read "aaaaa" "aa").render (some "b") = "aaaaa".replace "aa" ("b" ++ ".") ∧
    (read "aaaaa" "aa").render (some "b") = "b.b.a" ∧
    "page." = "page" ++ "." ∧
    (read "page.page.x" "page.").render (some "page") = "page.page.x" ∧
    (read "page.x" "").render (some "vm") = "page.x" := by
  have hw : "aa" ≠ "" := by decide
  obtain ⟨hreplaces, -, -⟩ := render_replaces "aaaaa" "aa"
  obtain ⟨-, hself, -⟩ := render_replaces "page.page.x" "page."
  obtain ⟨-, -, hnone⟩ := render_replaces "page.x" ""
  exact ⟨hw, (hreplaces hw).1 "b", by decide +kernel, rfl, hself "page" rfl, hnone rfl _⟩

/-- **The members of a text are the words behind its scope.**  There is one for
each of the places that rendering replaces, in their order, and it is the longest
word there, also if the scope is written once more in it. -/
theorem members_named (text : String) {scope : String} (hw : scope ≠ "") :
    ∃ starts, (∀ others, Found scope.toList text.toList 0 others ↔ others = starts) ∧
      starts.Pairwise (· < ·) ∧
      (∀ binding?, (read text scope).render binding? = String.ofList
        (replaceAt (replacement binding?) scope.toList.length text.toList 0 starts)) ∧
      (read text scope).members.length = starts.length ∧
      List.Forall₂ (fun start member => IsWordAt text.toList (start + scope.toList.length) member)
        starts (read text scope).members := by
  have hne : scope.toList ≠ [] := by simpa using hw
  obtain ⟨starts, hstarts⟩ := exists_places hw text
  have hfound := (hstarts starts).mpr rfl
  refine ⟨starts, hstarts, (hfound.ascending hne).2, render_of_found hw hfound, ?_, ?_⟩
  · rw [members_of_found hw hfound, List.length_map]
  · rw [members_of_found hw hfound, List.forall₂_map_right_iff, List.forall₂_same]
    exact fun start _ => isWordAt_wordAt _ _

/-- The first of these words holds the second place of the scope, and ends with
the second word. -/
theorem members_named_overlapping :
    "aa" ≠ "" ∧
    (read "aaaaa" "aa").members = ["aaa", "a"] ∧
    ∃ starts, Found "aa".toList "aaaaa".toList 0 starts ∧
      List.Forall₂ (fun start member => IsWordAt "aaaaa".toList (start + 2) member)
        starts ["aaa", "a"] := by
  have hw : "aa" ≠ "" := by decide
  have hmembers : (read "aaaaa" "aa").members = ["aaa", "a"] := by decide +kernel
  obtain ⟨starts, hstarts, _, _, _, hwords⟩ := members_named "aaaaa" hw
  rw [hmembers] at hwords
  exact ⟨hw, hmembers, starts, (hstarts starts).mpr rfl, hwords⟩

end ScopedText

end Pagewright
