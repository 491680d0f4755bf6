/-
Scopes are rewritten locally.

A character that is not in a scope and cannot stand in the name of a member is in no
reference.  It keeps the text in front of it and the text behind it apart: each of
them is read as if there were nothing else.

* `scopePieces_append_cons` — the pieces of a text with such a character;
* `Found.append_cons` — the places of the scope in it;
* `sourceLines_dropSelfScope`, `Method.function_eq_ofLines` — a method body is
  rewritten line by line, and so the lines of its function are written;
* `ScopedText.rewritten_locally` — all of this, for every scope and every such
  character, and for method bodies and their line feeds.
-/
import Pagewright.Proofs.Stripping

namespace Pagewright

variable {c : Char} {scope text front back : List Char} {position start : Nat}
  {starts later : List Nat}

/-! ### Pieces -/

/-- A word that begins in front of a character that it does not hold ends there as
well. -/
theorem prefix_append_cons_iff (hc : c ∉ scope) :
    scope <+: front ++ c :: back ↔ scope <+: front := by
  refine ⟨fun ⟨rest, hrest⟩ => ?_, fun h => h.trans (List.prefix_append _ _)⟩
  rcases List.append_eq_append_iff.mp hrest with ⟨between, hfront, -⟩ | ⟨beyond, hscope, hbeyond⟩
  · exact ⟨between, hfront.symm⟩
  · -- What of the word is not in front of the character would begin with it.
    cases beyond with
    | nil => exact ⟨[], by rw [hscope, List.append_nil, List.append_nil]⟩
    | cons d beyond =>
      obtain ⟨rfl, -⟩ := List.cons.inj hbeyond
      exact absurd (by simp [hscope]) hc

theorem isPrefixOf_append_cons (hc : c ∉ scope) (front back : List Char) :
    scope.isPrefixOf (front ++ c :: back) = scope.isPrefixOf front := by
  rw [Bool.eq_iff_iff, List.isPrefixOf_iff_prefix, List.isPrefixOf_iff_prefix,
    prefix_append_cons_iff hc]

theorem takeWhile_append_cons (hword : Text.isWordCharacter c = false) (front back : List Char) :
    (front ++ c :: back).takeWhile Text.isWordCharacter
      = front.takeWhile Text.isWordCharacter := by
  have hback : (c :: back).takeWhile Text.isWordCharacter = [] :=
    List.takeWhile_cons_of_neg (by simp [hword])
  rw [List.takeWhile_append, hback, List.append_nil]
  split
  · next hlength => exact ((List.takeWhile_prefix _).eq_of_length hlength).symm
  · rfl

/-- The pieces of a text with a foreign character are those in front of it, the
character itself, and those behind it. -/
theorem scopePieces_append_cons (hc : c ∉ scope) (hword : Text.isWordCharacter c = false)
    (back : List Char) : ∀ {skip : Nat} {front : List Char}, skip ≤ front.length →
      scopePieces scope skip (front ++ c :: back)
        = scopePieces scope skip front ++ .plain c :: scopePieces scope 0 back
  | skip + 1, [], h => absurd h (by simp)
  | skip + 1, _ :: front, h => by
    have hskip : skip ≤ front.length := Nat.le_of_succ_le_succ h
    rw [List.cons_append, scopePieces, scopePieces, scopePieces_append_cons hc hword back hskip]
  | 0, [], _ => by
    have hnot : (!scope.isEmpty && scope.isPrefixOf (c :: back)) = false := by
      rw [← List.nil_append (c :: back), isPrefixOf_append_cons hc]
      cases scope <;> rfl
    rw [List.nil_append, scopePieces, scopePieces, hnot]
    rfl
  | 0, d :: front, _ => by
    rw [List.cons_append, scopePieces, scopePieces, ← List.cons_append, isPrefixOf_append_cons hc]
    split
    · next hscope =>
      -- The member is that of the front, and as many of its characters are skipped.
      have hle : scope.length ≤ (d :: front).length :=
        (List.isPrefixOf_iff_prefix.mp (Bool.and_eq_true_iff.mp hscope).2).length_le
      have hskip : scope.length - 1 ≤ front.length := Nat.sub_le_of_le_add hle
      rw [List.drop_append_of_le_length hle, takeWhile_append_cons hword,
        scopePieces_append_cons hc hword back hskip, List.cons_append]
    · rw [scopePieces_append_cons hc hword back (Nat.zero_le _), List.cons_append]

theorem rewritten_append_cons (hc : c ∉ scope) (hword : Text.isWordCharacter c = false)
    (replacement front back : List Char) :
    rewritten scope replacement (front ++ c :: back)
      = rewritten scope replacement front ++ c :: rewritten scope replacement back := by
  rw [rewritten, scopePieces_append_cons hc hword back (Nat.zero_le _), List.flatMap_append,
    List.flatMap_cons]
  rfl

theorem not_mem_rewritten (h : c ∉ text) {replacement : List Char} (hc : c ∉ replacement) :
    c ∉ rewritten scope replacement text := by
  rw [rewritten, List.mem_flatMap]
  rintro ⟨piece, hpiece, hmem⟩
  cases piece with
  | plain d =>
    obtain rfl := List.mem_singleton.mp hmem
    exact h (mem_of_plain_mem_scopePieces hpiece)
  | reference member => exact hc hmem

/-! ### Places -/

theorem Found.ne_nil (h : Found scope text position starts) : scope ≠ [] := by
  rintro rfl
  generalize hword : ([] : List Char) = word at h
  induction h with
  | none hnone => exact hnone _ (Nat.le_refl _) (hword ▸ List.nil_prefix)
  | next _ _ _ _ ih => exact ih

theorem Found.prefix_of_mem (h : Found scope text position starts) (hmem : start ∈ starts) :
    scope <+: text.drop start := by
  induction h with
  | none => cases hmem
  | next _ hpre _ _ ih =>
    rcases List.mem_cons.mp hmem with rfl | hmem
    · exact hpre
    · exact ih hmem

/-- The search may begin earlier if there is no place before. -/
theorem Found.of_le {earlier : Nat} (h : Found scope text position starts)
    (hle : earlier ≤ position)
    (hnone : ∀ other, earlier ≤ other → other < position → ¬scope <+: text.drop other) :
    Found scope text earlier starts := by
  cases h with
  | none hlater =>
    refine .none fun start hstart => ?_
    rcases Nat.lt_or_ge start position with hlt | hge
    · exact hnone start hstart hlt
    · exact hlater start hge
  | next hge hpre hmin hrest =>
    refine .next (Nat.le_trans hle hge) hpre (fun other hother hlt => ?_) hrest
    rcases Nat.lt_or_ge other position with hlt' | hge'
    · exact hnone other hother hlt'
    · exact hmin other hge' hlt

/-- The places behind a text, if the search begins there. -/
theorem Found.shift (h : Found scope back position starts) (front : List Char) :
    Found scope (front ++ back) (position + front.length) (starts.map (· + front.length)) := by
  have hdrop : ∀ start, (front ++ back).drop (start + front.length) = back.drop start :=
    fun start => by rw [Nat.add_comm, List.drop_length_add_append]
  induction h with
  | none hnone =>
    refine .none fun start hstart => ?_
    obtain ⟨more, rfl⟩ : ∃ more, start = more + front.length := ⟨start - front.length, by omega⟩
    rw [hdrop]
    exact hnone more (Nat.le_of_add_le_add_right hstart)
  | @next position start starts hle hpre hmin _ ih =>
    refine .next (Nat.add_le_add_right hle _) (by rwa [hdrop]) (fun other hother hlt => ?_) ?_
    · obtain ⟨more, rfl⟩ : ∃ more, other = more + front.length :=
        ⟨other - front.length, by omega⟩
      rw [hdrop]
      exact hmin more (Nat.le_of_add_le_add_right hother) (Nat.lt_of_add_lt_add_right hlt)
    · rwa [Nat.add_right_comm]

/-- The places in a text with a foreign character are those in front of it and those
behind it. -/
theorem Found.append_cons (h : Found scope front position starts)
    (hback : Found scope back 0 later) (hc : c ∉ scope) (hle : position ≤ front.length) :
    Found scope (front ++ c :: back) position
      (starts ++ later.map (· + (front.length + 1))) := by
  have hbegins : ∀ start ≤ front.length,
      (scope <+: (front ++ c :: back).drop start ↔ scope <+: front.drop start) := by
    intro start hstart
    rw [List.drop_append_of_le_length hstart, prefix_append_cons_iff hc]
  induction h with
  | @none position hnone =>
    -- The search in front ends without a place, so the next one is behind the character.
    have hshift : Found scope (front ++ c :: back) (front.length + 1)
        (later.map (· + (front.length + 1))) := by
      have hbehind := hback.shift (front ++ [c])
      rwa [List.append_assoc, List.singleton_append, List.length_append, List.length_singleton,
        Nat.zero_add] at hbehind
    refine hshift.of_le (Nat.le_succ_of_le hle) fun other hother hlt => ?_
    rw [hbegins other (Nat.le_of_lt_succ hlt)]
    exact hnone other hother
  | @next position start starts hge hpre hmin hrest ih =>
    -- The place ends in front of the character, where the search goes on.
    have hstart : start + scope.length ≤ front.length := by
      have hlt := lt_length_of_prefix_drop hrest.ne_nil hpre
      have hlength := hpre.length_le
      rw [List.length_drop] at hlength
      omega
    have hinside : ∀ other ≤ start, other ≤ front.length := fun other hother => by omega
    refine .next hge ((hbegins start (hinside start (Nat.le_refl _))).mpr hpre)
      (fun other hother hlt => ?_) (ih hstart)
    rw [hbegins other (hinside other (Nat.le_of_lt hlt))]
    exact hmin other hother hlt

/-! ### References -/

/-- The characters of the reference at a place: the scope, and the member behind
it. -/
def referenceAt (scope text : List Char) (start : Nat) : List Char :=
  (text.drop start).take (scope.length + (wordAt text (start + scope.length)).length)

/-- No reference holds a foreign character. -/
theorem not_mem_referenceAt (hc : c ∉ scope) (hword : Text.isWordCharacter c = false)
    (h : scope <+: text.drop start) : c ∉ referenceAt scope text start := by
  obtain ⟨rest, hrest⟩ := h
  have hbehind : text.drop (start + scope.length) = rest := by
    rw [← List.drop_drop, ← hrest, List.drop_left]
  have hmember : rest.take (rest.takeWhile Text.isWordCharacter).length
      = rest.takeWhile Text.isWordCharacter :=
    (List.prefix_iff_eq_take.mp (List.takeWhile_prefix _)).symm
  rw [referenceAt, wordAt, hbehind, ← hrest, String.length_ofList, List.take_length_add_append,
    hmember, List.mem_append, not_or]
  refine ⟨hc, fun hmem => ?_⟩
  rw [List.all_eq_true.mp List.all_takeWhile c hmem] at hword
  cases hword

/-! ### Line by line -/

/-- A text is a single piece, or a piece, a separator and a text behind it. -/
@[elab_as_elim]
theorem piece_induction (c : Char) {motive : List Char → Prop}
    (last : ∀ piece, c ∉ piece → motive piece)
    (next : ∀ piece rest, c ∉ piece → motive rest → motive (piece ++ c :: rest))
    (text : List Char) : motive text := by
  by_cases h : c ∈ text
  · obtain ⟨piece, rest, htext, hpiece⟩ := List.eq_append_cons_of_mem h
    have hshorter : rest.length < text.length := by
      rw [htext, List.length_append, List.length_cons]
      omega
    rw [htext]
    exact next piece rest hpiece (piece_induction c last next rest)
  · exact last text h
termination_by text.length

section Pieces

variable (hc : c ∉ scope) (hword : Text.isWordCharacter c = false)
include hc hword

theorem splitOn_rewritten {replacement : List Char} (hreplacement : c ∉ replacement)
    (text : List Char) : (rewritten scope replacement text).splitOn c
      = (text.splitOn c).map (rewritten scope replacement) := by
  induction text using piece_induction c with
  | last piece hpiece =>
    rw [List.splitOn_eq_singleton hpiece,
      List.splitOn_eq_singleton (not_mem_rewritten hpiece hreplacement), List.map_singleton]
  | next piece rest hpiece ih =>
    rw [rewritten_append_cons hc hword, List.splitOn_append_cons_self_of_not_mem hpiece,
      List.splitOn_append_cons_self_of_not_mem (not_mem_rewritten hpiece hreplacement), ih,
      List.map_cons]

theorem count_rewritten {replacement : List Char} (hreplacement : c ∉ replacement)
    (text : List Char) : (rewritten scope replacement text).count c = text.count c := by
  induction text using piece_induction c with
  | last piece hpiece =>
    rw [List.count_eq_zero_of_not_mem hpiece,
      List.count_eq_zero_of_not_mem (not_mem_rewritten hpiece hreplacement)]
  | next piece rest hpiece ih =>
    rw [rewritten_append_cons hc hword, List.count_append, List.count_append, List.count_cons_self,
      List.count_cons_self, ih, List.count_eq_zero_of_not_mem hpiece,
      List.count_eq_zero_of_not_mem (not_mem_rewritten hpiece hreplacement)]

theorem filterMap_scopePieces_append_cons (front back : List Char) :
    (scopePieces scope 0 (front ++ c :: back)).filterMap ScopedText.memberOf
      = (scopePieces scope 0 front).filterMap ScopedText.memberOf
        ++ (scopePieces scope 0 back).filterMap ScopedText.memberOf := by
  rw [scopePieces_append_cons hc hword back (Nat.zero_le _), List.filterMap_append,
    List.filterMap_cons]
  rfl

theorem filterMap_scopePieces_splitOn (text : List Char) :
    (scopePieces scope 0 text).filterMap ScopedText.memberOf
      = (text.splitOn c).flatMap fun piece =>
        (scopePieces scope 0 piece).filterMap ScopedText.memberOf := by
  induction text using piece_induction c with
  | last piece hpiece => rw [List.splitOn_eq_singleton hpiece, List.flatMap_singleton]
  | next piece rest hpiece ih =>
    rw [filterMap_scopePieces_append_cons hc hword,
      List.splitOn_append_cons_self_of_not_mem hpiece, List.flatMap_cons, ih]

end Pieces

/-! ### Method bodies -/

theorem newLine_not_mem_selfScope : '\n' ∉ selfScope.toList := by decide

theorem not_isWordCharacter_newLine : Text.isWordCharacter '\n' = false := by decide +kernel

/-- A method body is rewritten line by line. -/
theorem sourceLines_dropSelfScope (body : String) :
    sourceLines (dropSelfScope body) = (sourceLines body).map dropSelfScope := by
  have hline : dropSelfScope ∘ String.ofList
      = String.ofList ∘ rewritten selfScope.toList [] := by
    funext line
    rw [Function.comp_apply, Function.comp_apply, ← String.toList_inj, toList_dropSelfScope,
      String.toList_ofList, String.toList_ofList]
  rw [sourceLines, toList_dropSelfScope, splitOn_rewritten newLine_not_mem_selfScope
    not_isWordCharacter_newLine List.not_mem_nil, List.map_map, sourceLines, List.map_map, hline]

/-- The lines of a text without an empty one behind the last line feed. -/
def withoutEmptyEnd (lines : List String) : List String :=
  if lines.getLast? = some "" then lines.dropLast else lines

theorem withoutEmptyEnd_cons (line : String) {lines : List String} (hlines : lines ≠ []) :
    withoutEmptyEnd (line :: lines) = line :: withoutEmptyEnd lines := by
  obtain ⟨next, rest, rfl⟩ := List.exists_cons_of_ne_nil hlines
  rw [withoutEmptyEnd, withoutEmptyEnd, List.getLast?_cons_cons, List.dropLast_cons_cons]
  split <;> rfl

/-- A carriage return at the end of a line is not written. -/
theorem writtenLine_dropReturn (line : List Char) :
    writtenLine (Text.dropReturn line.reverse).reverse = writtenLine line := by
  unfold Text.dropReturn
  split
  · next rest hreturn =>
    obtain rfl : line = rest.reverse ++ ['\r'] := by
      rw [← List.reverse_reverse line, hreturn, List.reverse_cons]
    have hspace : Text.isWhiteSpace '\r' = true := by decide
    have hend : Text.trimEnd (rest.reverse ++ ['\r']) = Text.trimEnd rest.reverse := by
      rw [Text.trimEnd, List.reverse_concat, List.dropWhile_cons_of_pos hspace, Text.trimEnd]
    rw [writtenLine, writtenLine, hend, List.all_append]
    simp [hspace]
  · rw [List.reverse_reverse]

theorem map_writtenLine_lines (text : List Char) :
    (Text.lines text).map writtenLine
      = (withoutEmptyEnd ((text.splitOn '\n').map String.ofList)).map
        fun line => writtenLine line.toList := by
  induction text using piece_induction '\n' with
  | last line hline =>
    -- What follows the last line feed is a line unless it is empty.
    rw [Text.lines, Text.linesFrom_of_not_mem line hline, List.splitOn_eq_singleton hline]
    cases line with
    | nil => rfl
    | cons c line => simp [withoutEmptyEnd]
  | next line rest hline ih =>
    have hrest : (rest.splitOn '\n').map String.ofList ≠ [] := by
      rw [ne_eq, List.map_eq_nil_iff]
      exact List.splitOn_ne_nil '\n' rest
    rw [Text.lines, Text.linesFrom_append line hline, List.append_nil, List.map_cons,
      writtenLine_dropReturn, ih, List.splitOn_append_cons_self_of_not_mem hline, List.map_cons,
      withoutEmptyEnd_cons _ hrest, List.map_cons, String.toList_ofList]

/-- The lines of a function are those of its body, each of them without its own
references. -/
theorem Method.function_eq_ofLines (method : Method) :
    method.function = ofLines (method.openingLine
      :: (withoutEmptyEnd ((sourceLines method.body).map dropSelfScope)).map
        (fun line => writtenLine line.toList)
      ++ [closingLine]) := by
  rw [function_eq, functionLines, map_writtenLine_lines, ← sourceLines, sourceLines_dropSelfScope]

namespace ScopedText

theorem toList_append_singleton_append (front back : String) (c : Char) :
    (front ++ String.singleton c ++ back).toList = front.toList ++ c :: back.toList := by
  simp

theorem members_read (text scope : String) :
    (read text scope).members = (scopePieces scope.toList 0 text.toList).filterMap memberOf :=
  rfl

/-- **Scopes are rewritten locally.**  A character that is not in a scope and cannot
stand in a name keeps apart what is in front of it and what is behind it: the text is
rendered, and has its members and its places, as if these were two texts.  So method
bodies lose their references line by line, with no reference over more than one line
and no line feed lost, and the lines of a function are written one by one. -/
theorem rewritten_locally :
    (∀ (front back scope : String) (c : Char),
      c ∉ scope.toList → Text.isAlphanumeric c = false → c ≠ '_' →
      (∀ binding?, (read (front ++ String.singleton c ++ back) scope).render binding?
        = (read front scope).render binding? ++ String.singleton c
          ++ (read back scope).render binding?) ∧
      (read (front ++ String.singleton c ++ back) scope).members
        = (read front scope).members ++ (read back scope).members ∧
      ∀ starts later, Found scope.toList front.toList 0 starts →
        Found scope.toList back.toList 0 later →
        Found scope.toList (front ++ String.singleton c ++ back).toList 0
          (starts ++ later.map (· + (front.length + 1)))) ∧
    ∀ method : Method,
      sourceLines (dropSelfScope method.body) = (sourceLines method.body).map dropSelfScope ∧
      (read method.body selfScope).members
        = (sourceLines method.body).flatMap (fun line => (read line selfScope).members) ∧
      (∀ starts, Found selfScope.toList method.body.toList 0 starts →
        ∀ start ∈ starts, '\n' ∉ referenceAt selfScope.toList method.body.toList start) ∧
      (dropSelfScope method.body).toList.count '\n' = method.body.toList.count '\n' ∧
      method.function = ofLines (method.openingLine
        :: (withoutEmptyEnd ((sourceLines method.body).map dropSelfScope)).map
          (fun line => writtenLine line.toList)
        ++ [closingLine]) := by
  refine ⟨fun front back scope c hc hletter hunderscore => ?_, fun method => ?_⟩
  · have hword : Text.isWordCharacter c = false := by
      rw [Text.isWordCharacter, hletter, Bool.false_or, beq_eq_false_iff_ne]
      exact hunderscore
    refine ⟨fun binding? => ?_, ?_, fun starts later hstarts hlater => ?_⟩
    · rw [render_eq_rewritten, toList_append_singleton_append, rewritten_append_cons hc hword,
        render_eq_rewritten, render_eq_rewritten, ← String.toList_inj,
        toList_append_singleton_append]
      simp
    · rw [members_read, toList_append_singleton_append,
        filterMap_scopePieces_append_cons hc hword]
      rfl
    · rw [toList_append_singleton_append, ← String.length_toList]
      exact hstarts.append_cons hlater hc (Nat.zero_le _)
  · have hfeed := newLine_not_mem_selfScope
    have hword := not_isWordCharacter_newLine
    refine ⟨sourceLines_dropSelfScope _, ?_, fun starts hstarts start hstart => ?_, ?_,
      method.function_eq_ofLines⟩
    · rw [members_read, filterMap_scopePieces_splitOn hfeed hword, sourceLines, List.flatMap_map]
      simp only [members_read, String.toList_ofList]
    · exact not_mem_referenceAt hfeed hword (hstarts.prefix_of_mem hstart)
    · rw [toList_dropSelfScope, count_rewritten hfeed hword List.not_mem_nil]

/-- A scope that overlaps with itself on both sides of a line feed, and a method body
whose lines are a reference without a member, a torn one, and one more at the end. -/
theorem rewritten_locally_overlapping :
    '\n' ∉ "aa".toList ∧ Text.isAlphanumeric '\n' = false ∧ '\n' ≠ '_' ∧
    (read "aaa\naaaa" "aa").render (some "b") = "b.a\nb.b." ∧
    (read "aaa\naaaa" "aa").members = ["a", "aa", ""] ∧
    Found "aa".toList "aaa".toList 0 [0] ∧ Found "aa".toList "aaaa".toList 0 [0, 2] ∧
    Found "aa".toList "aaa\naaaa".toList 0 [0, 4, 6] ∧
    sourceLines (dropSelfScope "x = this.\nthithis.s.y\nthis.") = ["x = ", "this.y", ""] ∧
    (∃ starts, Found selfScope.toList "x = this.\nthithis.s.y\nthis.".toList 0 starts ∧
      ∀ start ∈ starts,
        '\n' ∉ referenceAt selfScope.toList "x = this.\nthithis.s.y\nthis.".toList start) ∧
    (⟨"reset", "x = this.\nthithis.s.y\nthis."⟩ : Method).function
      = "    fun reset() \x7b\n        x =\n        this.y\n    \x7d\n" := by
  have hc : '\n' ∉ "aa".toList := by decide
  have hletter : Text.isAlphanumeric '\n' = false := by decide +kernel
  have hnone : ∀ {text : List Char} {position : Nat}, text.length < position + 2 →
      Found "aa".toList text position [] := by
    refine fun hlength => .none fun start hstart hpre => ?_
    have hle := hpre.length_le
    rw [List.length_drop] at hle
    simp at hle
    omega
  have hnext : ∀ {text : List Char} {start : Nat} {starts : List Nat},
      "aa".toList <+: text.drop start → Found "aa".toList text (start + 2) starts →
      Found "aa".toList text start (start :: starts) := by
    intro text start starts hpre hrest
    exact .next (Nat.le_refl _) hpre (fun other hother hlt => by omega) hrest
  have hstarts : Found "aa".toList "aaa".toList 0 [0] :=
    hnext (by decide) (hnone (by decide))
  have hlater : Found "aa".toList "aaaa".toList 0 [0, 2] :=
    hnext (by decide) (hnext (by decide) (hnone (by decide)))
  obtain ⟨hlocal, hmethod⟩ := rewritten_locally
  obtain ⟨hrender, hmembers, hfound⟩ := hlocal "aaa" "aaaa" "aa" '\n' hc hletter (by decide)
  obtain ⟨hlines, -, hreferences, -, hfunction⟩ :=
    hmethod ⟨"reset", "x = this.\nthithis.s.y\nthis."⟩
  have hscope : selfScope ≠ "" := by decide
  obtain ⟨places, hplaces⟩ := exists_places hscope "x = this.\nthithis.s.y\nthis."
  refine ⟨hc, hletter, by decide, (hrender (some "b")).trans (by decide +kernel),
    hmembers.trans (by decide +kernel), hstarts, hlater, hfound _ _ hstarts hlater,
    hlines.trans (by decide +kernel), ⟨places, (hplaces _).mpr rfl, ?_⟩,
    hfunction.trans (by decide +kernel)⟩
  exact hreferences places ((hplaces _).mpr rfl)

end ScopedText

end Pagewright
