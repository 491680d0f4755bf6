/-
What is left of a word when it is taken out of a text.

One pass from left to right takes out every place of the word, and the pieces
around such places come together.  The word may then be there anew:  one that is
torn apart by places of itself, as in `thithis.s.`, is whole behind the pass.

* `Torn` — a word written in parts, with the whole word between the parts;
* `torn_of_infix_flatten` — a word that is made anew was torn before;
* `infix_rewritten_iff` — a torn word is made anew, if its first character stands
  nowhere else in it;
* `rewritten_eq_self_iff` — a pass changes nothing exactly if the word is not there;
* `Method.holds_emittedBody_iff` — the lines of a function hold a word without
  white space exactly if the text of its body does;
* `selfScope_left_iff` — the method bodies that keep a reference to themselves.
-/
import Pagewright.Proofs.Gaps
import Pagewright.Proofs.StateHolder

namespace Pagewright

/-! ### Torn words -/

/-- A word is torn in a text if it stands there in parts, with the whole word in
each place between two of them. -/
def Torn (word text : List Char) : Prop :=
  ∃ first middle last, first ≠ [] ∧ last ≠ [] ∧ first ++ (middle.flatten ++ last) = word ∧
    word.intercalate (first :: (middle ++ [last])) <:+: text

section Words

variable {word text : List Char}

theorem Torn.of_infix {larger : List Char} (h : Torn word text) (hwithin : text <:+: larger) :
    Torn word larger := by
  obtain ⟨first, middle, last, hfirst, hlast, hword, htext⟩ := h
  exact ⟨first, middle, last, hfirst, hlast, hword, htext.trans hwithin⟩

theorem prefix_intercalate_cons (separator gap : List Char) (rest : List (List Char)) :
    gap <+: separator.intercalate (gap :: rest) := by
  cases rest with
  | nil => exact ⟨[], by simp⟩
  | cons next rest =>
    rw [List.intercalate_cons_cons, List.append_assoc]
    exact List.prefix_append _ _

/-- The beginning of some gaps, taken together, in parts: whole gaps, and the
beginning of the next one. -/
theorem exists_parts_of_prefix (separator : List Char) {gaps : List (List Char)}
    {back : List Char} (hback : back ≠ []) (h : back <+: gaps.flatten) :
    ∃ middle last, last ≠ [] ∧ middle.flatten ++ last = back ∧
      separator.intercalate (middle ++ [last]) <+: separator.intercalate gaps := by
  induction gaps generalizing back with
  | nil => exact absurd (List.prefix_nil.mp h) hback
  | cons gap rest ih =>
    obtain ⟨after, hafter⟩ := h
    rw [List.flatten_cons] at hafter
    rcases List.append_eq_append_iff.mp hafter with ⟨later, hlater, -⟩ | ⟨next, rfl, hnext⟩
    · refine ⟨[], back, hback, rfl, ?_⟩
      rw [List.nil_append, List.intercalate_singleton]
      exact (hlater ▸ List.prefix_append back later).trans (prefix_intercalate_cons _ _ _)
    · by_cases hnil : next = []
      · subst hnil
        rw [List.append_nil] at hback ⊢
        refine ⟨[], gap, hback, rfl, ?_⟩
        rw [List.nil_append, List.intercalate_singleton]
        exact prefix_intercalate_cons _ _ _
      · obtain ⟨middle, last, hlast, hparts, hbegins⟩ :=
          ih hnil (hnext ▸ List.prefix_append next after)
        have hrest : rest ≠ [] := by
          rintro rfl
          exact hnil (List.append_eq_nil_iff.mp hnext.symm).1
        refine ⟨gap :: middle, last, hlast, ?_, ?_⟩
        · rw [List.flatten_cons, List.append_assoc, hparts]
        · rw [List.cons_append, List.intercalate_cons_of_ne_nil (by simp),
            List.intercalate_cons_of_ne_nil hrest]
          exact List.prefix_append_right_inj _ |>.mpr hbegins

/-- A word that is in no gap but in all of them together is torn between them. -/
theorem torn_of_infix_flatten (hword : word ≠ []) {gaps : List (List Char)}
    (hgaps : ∀ gap ∈ gaps, ¬word <:+: gap) (h : word <:+: gaps.flatten) :
    Torn word (word.intercalate gaps) := by
  induction gaps with
  | nil => exact absurd (List.infix_nil.mp h) hword
  | cons gap rest ih =>
    obtain ⟨hgap, hrest⟩ := List.forall_mem_cons.mp hgaps
    have hne : rest ≠ [] := by
      rintro rfl
      exact hgap (by simpa using h)
    have hlater : Torn word (word.intercalate rest) →
        Torn word (word.intercalate (gap :: rest)) := by
      intro htorn
      rw [List.intercalate_cons_of_ne_nil hne]
      exact htorn.of_infix (List.suffix_append _ _).isInfix
    rw [List.flatten_cons] at h
    rcases List.infix_append_iff.mp h with hwithin | hwithin | ⟨first, back, hsplit, hfirst, hback⟩
    · exact absurd hwithin hgap
    · exact hlater (ih hrest hwithin)
    · by_cases hnil : first = []
      · subst hnil
        rw [List.nil_append] at hsplit
        exact hlater (ih hrest (hsplit ▸ hback.isInfix))
      · have hbackne : back ≠ [] := by
          rintro rfl
          rw [List.append_nil] at hsplit
          exact hgap (hsplit ▸ hfirst.isInfix)
        -- The word begins at the end of this gap and goes on over the next ones.
        obtain ⟨middle, last, hlast, hparts, hbegins⟩ := exists_parts_of_prefix word hbackne hback
        refine ⟨first, middle, last, hnil, hlast, by rw [hparts, hsplit], ?_⟩
        obtain ⟨before, rfl⟩ := hfirst
        obtain ⟨after, hafter⟩ := hbegins
        rw [List.intercalate_cons_of_ne_nil (by simp), List.intercalate_cons_of_ne_nil hne,
          ← hafter]
        exact ⟨before, after, by simp⟩

theorem intercalate_nil_eq_flatten (gaps : List (List Char)) :
    ([] : List Char).intercalate gaps = gaps.flatten := by
  induction gaps with
  | nil => rfl
  | cons gap rest ih =>
    cases rest with
    | nil => simp
    | cons next rest => rw [List.intercalate_cons_cons, ih, List.append_nil, ← List.flatten_cons]

theorem torn_of_infix_rewritten (hword : word ≠ []) (h : word <:+: rewritten word [] text) :
    Torn word text := by
  obtain ⟨gaps, -, htext, hrewritten, hgaps⟩ := exists_gaps hword text
  rw [hrewritten, intercalate_nil_eq_flatten] at h
  rw [htext]
  exact torn_of_infix_flatten hword hgaps h

end Words

/-! ### Words whose first character is in no other place -/

section Head

variable {c : Char} {tail : List Char} (hc : c ∉ tail) (replacement : List Char)
include hc

/-- Nothing of the word reaches over its first character. -/
theorem rewritten_append_head (front back : List Char) :
    rewritten (c :: tail) replacement (front ++ c :: back)
      = rewritten (c :: tail) replacement front
        ++ rewritten (c :: tail) replacement (c :: back) := by
  refine rewritten_append replacement (List.cons_ne_nil _ _) ?_
  intro first second hsplit hfirst hsecond _ hbegins
  obtain ⟨d, first, rfl⟩ := List.exists_cons_of_ne_nil hfirst
  obtain ⟨e, second, rfl⟩ := List.exists_cons_of_ne_nil hsecond
  obtain ⟨rfl, -⟩ := List.cons_prefix_cons.mp hbegins
  obtain ⟨-, rfl⟩ := List.cons.inj hsplit
  exact hc (by simp)

omit hc in
/-- A text without the first character of the word stays what it is, whatever
comes behind it. -/
theorem rewritten_append_of_head_not_mem {front : List Char} (hfront : c ∉ front)
    (back : List Char) :
    rewritten (c :: tail) replacement (front ++ back)
      = front ++ rewritten (c :: tail) replacement back := by
  induction front with
  | nil => rfl
  | cons d front ih =>
    obtain ⟨hd, hfront⟩ := not_or.mp (mt List.mem_cons.mpr hfront)
    have hplain : ¬c :: tail <+: d :: (front ++ back) :=
      fun hbegins => hd (List.cons_prefix_cons.mp hbegins).1
    rw [List.cons_append, rewritten_cons replacement hplain, ih hfront, List.cons_append]

omit hc in
/-- The places of the word between parts without its first character are those
that are found. -/
theorem rewritten_parts {middle : List (List Char)} {last : List Char}
    (hparts : c ∉ middle.flatten ++ last) (after : List Char) :
    rewritten (c :: tail) [] ((c :: tail).intercalate (middle ++ [last]) ++ after)
      = middle.flatten ++ last ++ rewritten (c :: tail) [] after := by
  induction middle with
  | nil =>
    rw [List.flatten_nil, List.nil_append] at hparts ⊢
    rw [List.nil_append, List.intercalate_singleton, rewritten_append_of_head_not_mem [] hparts]
  | cons part middle ih =>
    rw [List.flatten_cons, List.append_assoc, List.mem_append, not_or] at hparts
    rw [List.cons_append, List.intercalate_cons_of_ne_nil (by simp), List.append_assoc,
      List.append_assoc, rewritten_append_of_head_not_mem [] hparts.1,
      rewritten_scope_append [] (List.cons_ne_nil _ _), ih hparts.2, List.flatten_cons]
    simp

/-- **A word is made anew exactly if it was torn.** -/
theorem infix_rewritten_iff {text : List Char} :
    c :: tail <:+: rewritten (c :: tail) [] text ↔ Torn (c :: tail) text := by
  refine ⟨torn_of_infix_rewritten (List.cons_ne_nil _ _), ?_⟩
  rintro ⟨first, middle, last, hfirst, hlast, hword, before, after, htext⟩
  obtain ⟨d, first, rfl⟩ := List.exists_cons_of_ne_nil hfirst
  obtain ⟨rfl, htail⟩ : d = c ∧ first ++ (middle.flatten ++ last) = tail := List.cons.inj hword
  have hparts : d ∉ middle.flatten ++ last := fun hmem => hc (htail ▸ List.mem_append_right _ hmem)
  -- The first part is shorter than the word, so it is kept.
  have hshort : ¬d :: tail <:+: d :: first := by
    intro hwithin
    have hle := hwithin.length_le
    have hpositive := List.length_pos_iff.mpr hlast
    rw [← htail] at hle
    simp only [List.length_cons, List.length_append] at hle
    omega
  have hcut : before ++ (d :: tail).intercalate ((d :: first) :: (middle ++ [last])) ++ after
      = before ++ d :: (first ++ (d :: (tail
        ++ ((d :: tail).intercalate (middle ++ [last]) ++ after)))) := by
    rw [List.intercalate_cons_of_ne_nil (by simp)]
    simp
  rw [← htext, hcut, rewritten_append_head hc, ← List.cons_append, rewritten_append_head hc,
    rewritten_of_not_infix [] hshort, ← List.cons_append,
    rewritten_scope_append [] (List.cons_ne_nil _ _), List.nil_append, rewritten_parts hparts]
  exact ⟨rewritten (d :: tail) [] before, rewritten (d :: tail) [] after, by simp [← hword]⟩

end Head

/-! ### A second pass -/

section Passes

variable {word text : List Char}

theorem length_flatten_le (separator : List Char) (gaps : List (List Char)) :
    gaps.flatten.length ≤ (separator.intercalate gaps).length := by
  induction gaps with
  | nil => exact Nat.zero_le _
  | cons gap rest ih =>
    cases rest with
    | nil => simp
    | cons next rest =>
      rw [List.flatten_cons, List.intercalate_cons_cons]
      simp only [List.length_append] at ih ⊢
      omega

/-- A pass that changes nothing has found no place. -/
theorem rewritten_eq_self_iff (hword : word ≠ []) :
    rewritten word [] text = text ↔ ¬word <:+: text := by
  refine ⟨fun h => ?_, rewritten_of_not_infix []⟩
  obtain ⟨gaps, hne, htext, hrewritten, hgaps⟩ := exists_gaps hword text
  obtain ⟨gap, rest, rfl⟩ := List.exists_cons_of_ne_nil hne
  cases rest with
  | nil =>
    rw [htext, List.intercalate_singleton]
    exact hgaps gap List.mem_cons_self
  | cons next rest =>
    -- With a place between two gaps, the text gets shorter.
    have hlength := congrArg List.length (h.symm.trans (hrewritten []))
    rw [htext, intercalate_nil_eq_flatten, List.intercalate_cons_cons, List.flatten_cons] at hlength
    have hle := length_flatten_le word (next :: rest)
    have hpositive := List.length_pos_iff.mpr hword
    simp only [List.length_append] at hlength
    omega

end Passes

/-! ### The lines of a body -/

section Lines

variable {word front back : List Char}

theorem infix_append_left_iff (hword : word ≠ []) (h : ∀ c ∈ word.head?, c ∉ front) :
    word <:+: front ++ back ↔ word <:+: back := by
  have hreverse : word.reverse <:+: back.reverse ++ front.reverse ↔
      word.reverse <:+: back.reverse :=
    infix_append_right_iff (by simpa using hword) (by simpa using h)
  rwa [← List.reverse_append, List.reverse_infix, List.reverse_infix] at hreverse

/-- A word stands on one side of a character that it does not hold. -/
theorem infix_append_cons_iff {c : Char} (hword : word ≠ []) (hc : c ∉ word) :
    word <:+: front ++ c :: back ↔ word <:+: front ∨ word <:+: back := by
  have hforeign : ∀ d ∈ word.head?, d ∉ [c] := by
    intro d hd hmem
    exact hc (List.mem_singleton.mp hmem ▸ List.mem_of_head? hd)
  constructor
  · intro h
    rcases List.infix_append_iff.mp h with hfront | hback | ⟨first, last, rfl, hfirst, hlast⟩
    · exact .inl hfront
    · exact .inr ((infix_append_left_iff hword hforeign).mp hback)
    · rcases List.prefix_cons_iff.mp hlast with rfl | ⟨later, rfl, -⟩
      · rw [List.append_nil]
        exact .inl hfirst.isInfix
      · exact absurd (by simp) hc
  · rintro (h | h)
    · exact h.trans (List.prefix_append _ _).isInfix
    · exact h.trans ((List.suffix_cons c back).trans (List.suffix_append _ _)).isInfix

theorem exists_infix_linesFrom_iff (hword : word ≠ []) (hfeed : '\n' ∉ word)
    (hreturn : '\r' ∉ word) :
    ∀ {begun text : List Char}, (∃ line ∈ Text.linesFrom begun text, word <:+: line) ↔
      word <:+: begun.reverse ++ text
  | begun, [] => by
    rw [Text.linesFrom, List.append_nil]
    cases begun with
    | nil => simp [hword]
    | cons c begun => simp
  | begun, c :: text => by
    rw [Text.linesFrom]
    split
    · next hc =>
      subst hc
      rw [List.exists_mem_cons_iff, exists_infix_linesFrom_iff hword hfeed hreturn,
        infix_append_cons_iff hword hfeed, List.reverse_nil, List.nil_append]
      refine or_congr_left ?_
      unfold Text.dropReturn
      split
      · rw [List.reverse_cons, infix_append_right_iff hword]
        intro d hd hmem
        exact hreturn (List.mem_singleton.mp hmem ▸ List.mem_of_getLast? hd)
      · rfl
    · rw [exists_infix_linesFrom_iff hword hfeed hreturn, List.reverse_cons, List.append_assoc,
        List.singleton_append]

theorem trimEnd_append (line : List Char) :
    Text.trimEnd line ++ (line.reverse.takeWhile Text.isWhiteSpace).reverse = line := by
  rw [Text.trimEnd, ← List.reverse_append, List.takeWhile_append_dropWhile, List.reverse_reverse]

/-- A word without white space is written with its line. -/
theorem infix_writtenLine_iff {line : List Char} (hword : word ≠ [])
    (h : ∀ c ∈ word, ¬Text.isWhiteSpace c) :
    word <:+: (writtenLine line).toList ↔ word <:+: line := by
  have hdisjoint : ∀ spaces : List Char, (∀ c ∈ spaces, Text.isWhiteSpace c = true) →
      ∀ c ∈ word, c ∉ spaces := by
    intro spaces hspaces c hc hmem
    exact h c hc (hspaces c hmem)
  rw [writtenLine]
  split
  · next hblank =>
    -- The line is written as an empty one, and the word is in neither.
    refine iff_of_false (by simpa using hword) fun hwithin => ?_
    obtain ⟨c, hc⟩ := List.exists_mem_of_ne_nil word hword
    exact hdisjoint line (List.all_eq_true.mp hblank) c hc (hwithin.subset hc)
  · have hindent : ∀ c ∈ "        ".toList, Text.isWhiteSpace c = true :=
      List.all_eq_true.mp (by decide)
    have hend : ∀ c ∈ (line.reverse.takeWhile Text.isWhiteSpace).reverse,
        Text.isWhiteSpace c = true := by
      intro c hc
      exact List.all_eq_true.mp List.all_takeWhile c (List.mem_reverse.mp hc)
    rw [String.toList_append,
      infix_append_left_iff hword fun c hc => hdisjoint _ hindent c (List.mem_of_head? hc),
      String.toList_ofList]
    conv_rhs => rw [← trimEnd_append line]
    exact (infix_append_right_iff hword
      fun c hc => hdisjoint _ hend c (List.mem_of_getLast? hc)).symm

theorem infix_ofLines_iff (hword : word ≠ []) (hfeed : '\n' ∉ word) (lines : List String) :
    word <:+: (ofLines lines).toList ↔ ∃ line ∈ lines, word <:+: line.toList := by
  induction lines with
  | nil => simpa [ofLines] using hword
  | cons line lines ih =>
    have htoList : (ofLines (line :: lines)).toList
        = line.toList ++ '\n' :: (ofLines lines).toList := by
      simp [ofLines_cons]
    rw [htoList, infix_append_cons_iff hword hfeed, ih, List.exists_mem_cons_iff]

end Lines

namespace Method

/-- The text between the first and the last line of the function of a method. -/
def emittedBody (method : Method) : String :=
  ofLines ((Text.lines (dropSelfScope method.body).toList).map writtenLine)

theorem function_eq_emittedBody (method : Method) :
    method.function
      = method.openingLine ++ "\n" ++ method.emittedBody ++ (closingLine ++ "\n") := by
  rw [function_eq, functionLines, ofLines_append, ofLines_cons, emittedBody]
  simp [ofLines]

/-- The lines of a function hold a word without white space exactly if the text of
its body does. -/
theorem holds_emittedBody_iff (method : Method) {word : String} (hword : word ≠ "")
    (h : ∀ c ∈ word.toList, ¬Text.isWhiteSpace c) :
    Holds method.emittedBody word ↔ Holds (dropSelfScope method.body) word := by
  have hne : word.toList ≠ [] := by simpa using hword
  have hforeign : ∀ c, Text.isWhiteSpace c = true → c ∉ word.toList := by
    intro c hspace hmem
    exact h c hmem hspace
  have hfeed : '\n' ∉ word.toList := hforeign _ (by decide)
  rw [holds_iff, emittedBody, infix_ofLines_iff hne hfeed, holds_iff]
  simp only [List.mem_map, exists_exists_and_eq_and, infix_writtenLine_iff hne h]
  rw [Text.lines, exists_infix_linesFrom_iff hne hfeed (hforeign _ (by decide)),
    List.reverse_nil, List.nil_append]

end Method

/-! ### References of a method to itself -/

theorem toList_dropSelfScope (body : String) :
    (dropSelfScope body).toList = rewritten selfScope.toList [] body.toList := by
  rw [dropSelfScope, ScopedText.render_eq_rewritten, String.toList_ofList]
  rfl

theorem holds_dropSelfScope_iff (body : String) :
    Holds (dropSelfScope body) selfScope ↔ Torn selfScope.toList body.toList := by
  have hhead : 't' ∉ "his.".toList := by decide
  rw [holds_iff, toList_dropSelfScope]
  exact infix_rewritten_iff hhead

theorem dropSelfScope_dropSelfScope_iff (body : String) :
    dropSelfScope (dropSelfScope body) = dropSelfScope body ↔
      ¬Torn selfScope.toList body.toList := by
  rw [← holds_dropSelfScope_iff, holds_iff, ← String.toList_inj, toList_dropSelfScope]
  exact rewritten_eq_self_iff (by decide)

/-- Behind the first part of a torn word, which ends with a character of the word
other than its last one, there is the word. -/
theorem Torn.exists_infix {word text : List Char} (h : Torn word text) :
    ∃ c ∈ word.dropLast, c :: word <:+: text := by
  obtain ⟨first, middle, last, hfirst, hlast, hword, htext⟩ := h
  obtain ⟨front, c, rfl⟩ := (List.eq_nil_or_concat' first).resolve_left hfirst
  refine ⟨c, ?_, ?_⟩
  · rw [← hword, List.dropLast_append_of_ne_nil (by simp [hlast])]
    simp
  · rw [List.intercalate_cons_of_ne_nil (by simp)] at htext
    refine List.IsInfix.trans ⟨front, word.intercalate (middle ++ [last]), ?_⟩ htext
    simp

/-- **Which method bodies keep a reference to themselves.**  One pass takes every
reference out of a body.  The text that is left holds one exactly if the body holds
one torn apart by others, and a second pass changes that text exactly then.  What
stands between the first and the last line of the function holds a reference exactly
then as well.  No reference is torn if none follows directly on one of the letters
of `this`. -/
theorem selfScope_left_iff (method : Method) :
    (Holds (dropSelfScope method.body) selfScope ↔
      Torn selfScope.toList method.body.toList) ∧
    (dropSelfScope (dropSelfScope method.body) = dropSelfScope method.body ↔
      ¬Torn selfScope.toList method.body.toList) ∧
    method.function
      = method.openingLine ++ "\n" ++ method.emittedBody ++ (closingLine ++ "\n") ∧
    (Holds method.emittedBody selfScope ↔ Torn selfScope.toList method.body.toList) ∧
    ((∀ c ∈ "this".toList, ¬c :: selfScope.toList <:+: method.body.toList) →
      ¬Torn selfScope.toList method.body.toList) := by
  refine ⟨holds_dropSelfScope_iff _, dropSelfScope_dropSelfScope_iff _,
    method.function_eq_emittedBody, ?_, fun h htorn => ?_⟩
  · rw [method.holds_emittedBody_iff (by decide) (List.any_eq_false.mp (by decide))]
    exact holds_dropSelfScope_iff _
  · obtain ⟨c, hc, hwithin⟩ := htorn.exists_infix
    exact h c hc hwithin

/-- A method whose references stand behind blanks and operators loses all of them. -/
theorem selfScope_left_swap :
    (∀ c ∈ "this".toList, ¬c :: selfScope.toList <:+: "this.a.value = this.b.value".toList) ∧
    ¬Holds (⟨"swap", "this.a.value = this.b.value"⟩ : Method).emittedBody selfScope := by
  have hapart : ∀ c ∈ "this".toList,
      ¬c :: selfScope.toList <:+: "this.a.value = this.b.value".toList := by
    have hthis : "this".toList = ['t', 'h', 'i', 's'] := rfl
    simp only [hthis, List.forall_mem_cons]
    exact ⟨by decide +kernel, by decide +kernel, by decide +kernel, by decide +kernel,
      List.forall_mem_nil _⟩
  obtain ⟨-, -, -, hemitted, hclear⟩ := selfScope_left_iff ⟨"swap", "this.a.value = this.b.value"⟩
  exact ⟨hapart, fun h => hclear hapart (hemitted.mp h)⟩

/-- A body with a torn reference, for which one pass is not enough. -/
theorem selfScope_left_torn :
    dropSelfScope "thithis.s.x" = "this.x" ∧ Holds (dropSelfScope "thithis.s.x") selfScope ∧
    dropSelfScope (dropSelfScope "thithis.s.x") ≠ dropSelfScope "thithis.s.x" ∧
    (⟨"reset", "thithis.s.x"⟩ : Method).function
      = "    fun reset() \x7b\n        this.x\n    \x7d\n" := by
  have hpass : dropSelfScope "thithis.s.x" = "this.x" := by decide +kernel
  refine ⟨hpass, ?_, ?_, ?_⟩
  · rw [hpass, holds_iff]
    exact ⟨[], ['x'], by decide⟩
  · rw [hpass]
    decide +kernel
  · decide +kernel

end Pagewright
