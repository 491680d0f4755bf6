/-
Bindings that leave no reference to the page behind.

A scope is a stem and a dot.  When a binding and a dot are put in its place, the
stem may be there again: in the binding itself, or with the text in front of it.

* `infix_append_dot_iff` — where a stem with its dot stands in a text that is cut
  behind a dot;
* `not_infix_intercalate` — between gaps without the scope, no binding makes one
  anew unless it ends with the stem or is an end of it;
* `pageScope_eliminated` — of all bindings without a dot, these are the ones that
  leave a reference to the page in some property value.
-/
import Pagewright.Proofs.Gaps
import Pagewright.Settings
import Pagewright.View.Call

namespace Pagewright

/-! ### Stems and dots -/

section Stem

variable {stem : List Char} {dot : Char}

/-- Where a stem with its dot stands in a text that is cut behind a dot:  in front
of it, right there, or behind it. -/
theorem infix_append_dot_iff (hdot : dot ∉ stem) {front back : List Char} :
    stem ++ [dot] <:+: front ++ dot :: back ↔
      stem ++ [dot] <:+: front ∨ stem <:+ front ∨ stem ++ [dot] <:+: back := by
  have hcut : front ++ dot :: back = (front ++ [dot]) ++ back := by simp
  constructor
  · intro h
    rw [hcut] at h
    rcases List.infix_append_iff.mp h with hfront | hback | ⟨first, second, hsplit, hfirst, hsecond⟩
    · rcases List.infix_concat_iff.mp hfront with hsuffix | hwithin
      · exact .inr (.inl (List.suffix_append_self_iff.mp hsuffix))
      · exact .inl hwithin
    · exact .inr (.inr hback)
    · rcases List.suffix_concat_iff.mp hfirst with rfl | ⟨before, rfl, hbefore⟩
      · rw [List.nil_append] at hsplit
        exact .inr (.inr (hsplit ▸ hsecond.isInfix))
      · -- The dot of the cut is that of the stem, so nothing is left behind it.
        rcases List.eq_nil_or_concat' second with rfl | ⟨middle, last, rfl⟩
        · rw [List.append_nil] at hsplit
          exact .inr (.inl ((List.append_singleton_inj.mp hsplit).1 ▸ hbefore))
        · rw [← List.append_assoc] at hsplit
          obtain ⟨hstem, -⟩ := List.append_singleton_inj.mp hsplit
          exact absurd (by simp [hstem]) hdot
  · rintro (hfront | ⟨before, rfl⟩ | hback)
    · exact hfront.trans (List.prefix_append front _).isInfix
    · exact ⟨before, back, by simp⟩
    · exact hcut ▸ hback.trans (List.suffix_append _ _).isInfix

/-- Between gaps without the scope, a binding makes none anew unless it ends with
the stem or is an end of it. -/
theorem not_infix_intercalate {binding : List Char} (hstem : dot ∉ stem)
    (hbinding : dot ∉ binding) (hends : ¬stem <:+ binding) (hend : ¬binding <:+ stem)
    {gaps : List (List Char)} (hgaps : ∀ gap ∈ gaps, ¬stem ++ [dot] <:+: gap) :
    ¬stem ++ [dot] <:+: (binding ++ [dot]).intercalate gaps := by
  induction gaps with
  | nil => simp
  | cons gap rest ih =>
    obtain ⟨hgap, hrest⟩ := List.forall_mem_cons.mp hgaps
    cases rest with
    | nil => rwa [List.intercalate_singleton]
    | cons next rest =>
      have hcut : (binding ++ [dot]).intercalate (gap :: next :: rest)
          = (gap ++ binding) ++ dot :: (binding ++ [dot]).intercalate (next :: rest) := by
        rw [List.intercalate_cons_cons]
        simp
      rw [hcut, infix_append_dot_iff hstem,
        infix_append_right_iff (by simp) (by simpa using hbinding)]
      rintro (hfront | hborder | hback)
      · exact hgap hfront
      · -- Of the stem and the binding, both at the end of the same text, one ends with the other.
        rcases List.suffix_or_suffix_of_suffix hborder (List.suffix_append gap binding) with h | h
        · exact hends h
        · exact hend h
      · exact ih hrest hback

/-- A scope behind a text without a dot is found there. -/
theorem rewritten_append_scope {front : List Char} (hstem : dot ∉ stem) (hfront : dot ∉ front)
    (replacement : List Char) :
    rewritten (stem ++ [dot]) replacement (front ++ (stem ++ [dot])) = front ++ replacement := by
  have hscope : stem ++ [dot] ≠ [] := by simp
  have hnone : ¬stem ++ [dot] <:+: front := fun h => hfront (h.subset (by simp))
  have hrest : rewritten (stem ++ [dot]) replacement (stem ++ [dot]) = replacement := by
    simpa [rewritten_nil] using rewritten_scope_append replacement hscope []
  rw [rewritten_append replacement hscope, rewritten_of_not_infix replacement hnone, hrest]
  intro first second hsplit hfirst hsecond _ hbegins
  -- A scope that ends inside the scope behind the text would have its dot there.
  obtain ⟨middle, last, rfl⟩ := (List.eq_nil_or_concat' second).resolve_left hsecond
  rw [← List.append_assoc] at hsplit
  obtain ⟨hmiddle, rfl⟩ := List.append_singleton_inj.mp hsplit
  rcases List.prefix_concat_iff.mp hbegins with heq | hinside
  · rw [← hmiddle] at heq
    simp [hfirst] at heq
  · exact hstem (hinside.subset (by simp))

end Stem

/-! ### References to the page -/

theorem toList_bindPageScope (value binding : String) :
    (bindPageScope value binding).toList
      = rewritten pageScope.toList (binding.toList ++ ['.']) value.toList := by
  rw [bindPageScope, ScopedText.render_eq_rewritten, String.toList_ofList]
  rfl

/-- A property value without references to the page stays what it is. -/
theorem bindPageScope_of_not_holds {value : String} (h : ¬Holds value pageScope)
    (binding : String) : bindPageScope value binding = value := by
  rw [← String.toList_inj, toList_bindPageScope, rewritten_of_not_infix]
  exact fun hwithin => h (holds_iff.mpr hwithin)

theorem not_holds_bindPageScope {binding : String} (hdot : '.' ∉ binding.toList)
    (hends : ¬"page".toList <:+ binding.toList) (hend : ¬binding.toList <:+ "page".toList)
    (value : String) : ¬Holds (bindPageScope value binding) pageScope := by
  have hscope : pageScope.toList ≠ [] := by decide
  have hstem : '.' ∉ "page".toList := by decide
  obtain ⟨gaps, -, -, hrewritten, hgaps⟩ := exists_gaps hscope value.toList
  rw [holds_iff, toList_bindPageScope, hrewritten]
  exact not_infix_intercalate hstem hdot hends hend hgaps

/-- A binding that ends with the stem is a reference together with its dot. -/
theorem holds_bindPageScope_of_ends {binding : String} (h : "page".toList <:+ binding.toList) :
    Holds (bindPageScope "page." binding) pageScope := by
  have hrewritten : (bindPageScope "page." binding).toList = binding.toList ++ ['.'] := by
    rw [toList_bindPageScope]
    exact (rewritten_scope_append _ (by decide) []).trans (List.append_nil _)
  obtain ⟨before, hbefore⟩ := h
  rw [holds_iff, hrewritten, ← hbefore]
  exact ⟨before, [], by simp [pageScope]⟩

/-- Another end of the stem becomes a reference behind the beginning of the stem. -/
theorem exists_holds_bindPageScope {binding : String} (h : binding.toList <:+ "page".toList) :
    ∃ value, Holds (bindPageScope value binding) pageScope := by
  obtain ⟨front, hfront⟩ := h
  have hstem : '.' ∉ "page".toList := by decide
  have hdot : '.' ∉ front := fun hmem => hstem (hfront ▸ List.mem_append_left _ hmem)
  have hrewritten : rewritten pageScope.toList (binding.toList ++ ['.'])
      (front ++ pageScope.toList) = front ++ (binding.toList ++ ['.']) :=
    rewritten_append_scope hstem hdot _
  have hpage : front ++ (binding.toList ++ ['.']) = pageScope.toList := by
    rw [← List.append_assoc, hfront]
    rfl
  refine ⟨String.ofList (front ++ pageScope.toList), ?_⟩
  rw [holds_iff, toList_bindPageScope, String.toList_ofList, hrewritten]
  exact ⟨[], [], by rw [hpage, List.nil_append, List.append_nil]⟩

/-- **Which bindings leave a reference to the page behind.**  A binding without a
dot leaves none in any property value exactly if it does not end with `page` and is
not itself an end of `page`, and then a value that has been bound is bound to
whatever else without a change.  No property value is written into a view with a
reference to the page under the binding that is used by default. -/
theorem pageScope_eliminated :
    (∀ binding : String, '.' ∉ binding.toList →
      ((∀ value, ¬Holds (bindPageScope value binding) pageScope) ↔
        ¬"page".toList <:+ binding.toList ∧ ¬binding.toList <:+ "page".toList) ∧
      ((∀ value, ¬Holds (bindPageScope value binding) pageScope) →
        ∀ value other, bindPageScope (bindPageScope value binding) other
          = bindPageScope value binding)) ∧
    ∀ (level : Nat) (value : String),
      ¬Holds ((ArgumentValue.expression value).source ({} : Settings).binding level)
        pageScope := by
  refine ⟨fun binding hdot => ⟨⟨fun h => ⟨fun hends => ?_, fun hend => ?_⟩, ?_⟩, ?_⟩, ?_⟩
  · exact h "page." (holds_bindPageScope_of_ends hends)
  · obtain ⟨value, hvalue⟩ := exists_holds_bindPageScope hend
    exact h value hvalue
  · rintro ⟨hends, hend⟩ value
    exact not_holds_bindPageScope hdot hends hend value
  · intro h value other
    exact bindPageScope_of_not_holds (h value) other
  · intro _ value
    exact not_holds_bindPageScope (by decide) (by decide) (by decide) value

/-- A binding that is harmless, one that ends with the stem, and one that is an end
of it. -/
theorem pageScope_eliminated_vm :
    '.' ∉ "vm".toList ∧ (∀ value, ¬Holds (bindPageScope value "vm") pageScope) ∧
    bindPageScope (bindPageScope "page.a + pagepage.b" "vm") "e"
      = bindPageScope "page.a + pagepage.b" "vm" ∧
    ¬(∀ value, ¬Holds (bindPageScope value "homepage") pageScope) ∧
    ¬(∀ value, ¬Holds (bindPageScope value "e") pageScope) := by
  obtain ⟨hbindings, -⟩ := pageScope_eliminated
  have hdot : '.' ∉ "vm".toList := by decide
  have hvm := (hbindings "vm" hdot).1.mpr ⟨by decide, by decide⟩
  refine ⟨hdot, hvm, (hbindings "vm" hdot).2 hvm _ "e", fun h => ?_, fun h => ?_⟩
  · exact ((hbindings "homepage" (by decide)).1.mp h).1 (by decide)
  · exact ((hbindings "e" (by decide)).1.mp h).2 (by decide)

end Pagewright
