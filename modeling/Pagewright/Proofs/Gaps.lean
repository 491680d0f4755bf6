/-
A text as what stands between the places of a scope.

To put something else in place of a scope is to keep the gaps between its places
and to change what stands between them.

* `exists_gaps` — the gaps of a text, none of which holds the scope;
* `rewritten_append` — two texts are rewritten one by one if no place of the scope
  reaches from the first into the second;
* `holds_iff` — what a source text holds, as a list of characters.
-/
import Pagewright.Proofs.Agreement

namespace Pagewright

variable {scope text : List Char}

/-- A text with a replacement at the places of its scope. -/
def rewritten (scope replacement text : List Char) : List Char :=
  (scopePieces scope 0 text).flatMap (ScopedText.renderPiece replacement)

theorem ScopedText.render_eq_rewritten (text scope : String) (binding? : Option String) :
    (read text scope).render binding?
      = String.ofList (rewritten scope.toList (replacement binding?) text.toList) :=
  render_eq text scope binding?

theorem holds_iff {source piece : String} :
    Holds source piece ↔ piece.toList <:+: source.toList := by
  constructor
  · rintro ⟨before, after, rfl⟩
    exact ⟨before.toList, after.toList, by rw [String.toList_append, String.toList_append]⟩
  · rintro ⟨before, after, h⟩
    refine ⟨String.ofList before, String.ofList after, ?_⟩
    rw [← String.toList_inj, String.toList_append, String.toList_append, String.toList_ofList,
      String.toList_ofList, h]

/-- A word is not in a text that its last character is not in, nor partly so. -/
theorem infix_append_right_iff {word front back : List Char} (hword : word ≠ [])
    (h : ∀ c ∈ word.getLast?, c ∉ back) : word <:+: front ++ back ↔ word <:+: front := by
  obtain ⟨stem, last, rfl⟩ := (List.eq_nil_or_concat' word).resolve_left hword
  have hlast : last ∉ back := h last (by simp)
  constructor
  · intro hwithin
    rcases List.infix_append_iff.mp hwithin with
      hfront | hback | ⟨first, second, hsplit, hfirst, hsecond⟩
    · exact hfront
    · exact absurd (hback.subset (by simp)) hlast
    · -- The last character would be in the second part, unless that is empty.
      rcases List.eq_nil_or_concat' second with rfl | ⟨middle, other, rfl⟩
      · rw [List.append_nil] at hsplit
        exact hsplit ▸ hfirst.isInfix
      · rw [← List.append_assoc] at hsplit
        obtain rfl : last = other := (List.append_singleton_inj.mp hsplit).2
        exact absurd (hsecond.subset (by simp)) hlast
  · exact fun hwithin => hwithin.trans (List.prefix_append front back).isInfix

/-! ### Gaps -/

theorem not_infix_of_not_prefix_drop {word gap : List Char} {position start : Nat}
    (hgap : gap = (text.drop position).take (start - position)) (hword : word ≠ [])
    (h : ∀ other, position ≤ other → other < start → ¬word <+: text.drop other) :
    ¬word <:+: gap := by
  rintro ⟨before, after, hwithin⟩
  have hlength := congrArg List.length hwithin
  have htake : gap.length ≤ start - position := by
    rw [hgap]
    exact List.length_take_le _ _
  have hpositive := List.length_pos_iff.mpr hword
  rw [List.length_append, List.length_append] at hlength
  refine h (position + before.length) (by omega) (by omega) ?_
  -- The place in the gap is one in the text.
  have hbegins : before ++ word <+: text.drop position :=
    (List.prefix_append _ after).trans (hwithin ▸ hgap ▸ List.take_prefix _ _)
  obtain ⟨rest, hrest⟩ := hbegins
  rw [← List.drop_drop, ← hrest, List.append_assoc, List.drop_left]
  exact List.prefix_append word rest

theorem Found.exists_gaps (hw : scope ≠ []) {position : Nat} {starts : List Nat}
    (h : Found scope text position starts) :
    ∃ gaps, gaps ≠ [] ∧ text.drop position = scope.intercalate gaps ∧
      (∀ replacement, replaceAt replacement scope.length text position starts
        = replacement.intercalate gaps) ∧
      ∀ gap ∈ gaps, ¬scope <:+: gap := by
  induction h with
  | @none position hnone =>
    refine ⟨[text.drop position], List.cons_ne_nil _ _, ?_, fun replacement => ?_, ?_⟩
    · rw [List.intercalate_singleton]
    · rw [List.intercalate_singleton, replaceAt]
    · rw [List.forall_mem_singleton]
      rintro ⟨before, after, hwithin⟩
      refine hnone (position + before.length) (Nat.le_add_right _ _) ?_
      rw [← List.drop_drop, ← hwithin, List.append_assoc, List.drop_left]
      exact List.prefix_append _ _
  | @next position start starts hle hpre hmin _ ih =>
    obtain ⟨gaps, hne, htext, hreplace, hgaps⟩ := ih
    obtain ⟨second, rest, rfl⟩ := List.exists_cons_of_ne_nil hne
    refine ⟨(text.drop position).take (start - position) :: second :: rest,
      List.cons_ne_nil _ _, ?_, fun replacement => ?_, ?_⟩
    · rw [List.intercalate_cons_cons, ← htext]
      exact drop_eq_of_prefix hle hpre
    · rw [replaceAt, hreplace, List.intercalate_cons_cons]
    · rw [List.forall_mem_cons]
      exact ⟨not_infix_of_not_prefix_drop rfl hw hmin, hgaps⟩

/-- The gaps of a text:  with the scope between them they are the text, and with a
replacement between them the rewritten text. -/
theorem exists_gaps (hw : scope ≠ []) (text : List Char) :
    ∃ gaps, gaps ≠ [] ∧ text = scope.intercalate gaps ∧
      (∀ replacement, rewritten scope replacement text = replacement.intercalate gaps) ∧
      ∀ gap ∈ gaps, ¬scope <:+: gap := by
  obtain ⟨starts, hfound⟩ : ∃ starts, Found scope text 0 starts := exists_found hw 0
  obtain ⟨gaps, hne, htext, hreplace, hgaps⟩ := hfound.exists_gaps hw
  refine ⟨gaps, hne, htext, fun replacement => ?_, hgaps⟩
  rw [← hreplace, ← flatMap_scopePieces hw replacement hfound]
  rfl

/-! ### Rewriting piece by piece -/

section Rewriting

variable (replacement : List Char)

theorem rewritten_nil : rewritten scope replacement [] = [] :=
  rfl

theorem rewritten_of_not_infix (h : ¬scope <:+: text) :
    rewritten scope replacement text = text := by
  rw [rewritten, scopePieces_of_none, flatMap_plain]
  intro start hbegins
  exact h (hbegins.isInfix.trans (List.drop_suffix start text).isInfix)

theorem rewritten_scope_append (hw : scope ≠ []) (rest : List Char) :
    rewritten scope replacement (scope ++ rest)
      = replacement ++ rewritten scope replacement rest := by
  rw [rewritten, scopePieces_reference hw, List.flatMap_cons]
  rfl

theorem rewritten_cons {c : Char} {rest : List Char} (h : ¬scope <+: c :: rest) :
    rewritten scope replacement (c :: rest) = c :: rewritten scope replacement rest := by
  rw [rewritten, scopePieces_plain h, List.flatMap_cons]
  rfl

/-- Two texts are rewritten one by one if the scope is nowhere written partly at
the end of the first and partly at the beginning of the second. -/
theorem rewritten_append (hw : scope ≠ []) {first second : List Char}
    (h : ∀ front back, front ++ back = scope → front ≠ [] → back ≠ [] →
      front <:+ first → ¬back <+: second) :
    rewritten scope replacement (first ++ second)
      = rewritten scope replacement first ++ rewritten scope replacement second := by
  induction hlength : first.length using Nat.strong_induction_on generalizing first with
  | _ length ih =>
    subst hlength
    cases first with
    | nil => rfl
    | cons c rest =>
      by_cases hscope : scope <+: c :: rest ++ second
      · -- The scope starts here, and so it ends in the first text as well.
        obtain ⟨later, hlater⟩ : ∃ later, c :: rest = scope ++ later := by
          obtain ⟨after, hafter⟩ := hscope
          rcases List.append_eq_append_iff.mp hafter with
            ⟨later, hlater, -⟩ | ⟨back, hback, hsecond⟩
          · exact ⟨later, hlater⟩
          · by_cases hnil : back = []
            · exact ⟨[], by rw [hback, hnil, List.append_nil, List.append_nil]⟩
            · exact absurd (hsecond ▸ List.prefix_append back after)
                (h (c :: rest) back hback.symm (List.cons_ne_nil _ _) hnil (List.suffix_refl _))
        have hshorter : later.length < (c :: rest).length := by
          have hpositive := List.length_pos_iff.mpr hw
          rw [hlater, List.length_append]
          omega
        rw [hlater, List.append_assoc, rewritten_scope_append replacement hw,
          rewritten_scope_append replacement hw, List.append_assoc,
          ih later.length hshorter _ rfl]
        intro front back hsplit hfront hback hsuffix
        exact h front back hsplit hfront hback (hlater ▸ hsuffix.trans (List.suffix_append _ _))
      · have hrest : ¬scope <+: c :: rest :=
          fun hbegins => hscope (hbegins.trans (List.prefix_append _ _))
        rw [List.cons_append] at hscope ⊢
        rw [rewritten_cons replacement hrest, rewritten_cons replacement hscope,
          ih rest.length (Nat.lt_succ_self _) _ rfl, List.cons_append]
        intro front back hsplit hfront hback hsuffix
        exact h front back hsplit hfront hback (hsuffix.trans (List.suffix_cons c rest))

end Rewriting

end Pagewright
