/-
Where a scope is written in a text.

`Found scope text position starts` says, without reference to how a text is
read, at which places a scope is found when one looks for it from left to
right and goes on behind every place found: `starts` are the first characters
of these places, those before `position` left out.

* `exists_found`, `Found.unique` — there always are such places, and no others;
* `Found.ascending` — they come in ascending order;
* `members_of_found` — the members of a text are the words behind them;
* `render_of_found` — a text is rendered by putting something else there.
-/
import Mathlib.Data.Nat.Find
import Pagewright.Scope

namespace Pagewright

variable {scope text : List Char}

/-- The places of a word in a text from a position on, from left to right
without overlap. -/
inductive Found (word text : List Char) : Nat → List Nat → Prop
  | none {position : Nat} :
    (∀ start, position ≤ start → ¬word <+: text.drop start) →
    Found word text position []
  | next {position start : Nat} {starts : List Nat} :
    position ≤ start → word <+: text.drop start →
    (∀ other, position ≤ other → other < start → ¬word <+: text.drop other) →
    Found word text (start + word.length) starts →
    Found word text position (start :: starts)

/-- The longest run of word characters in a text from a position on. -/
def wordAt (text : List Char) (position : Nat) : String :=
  String.ofList ((text.drop position).takeWhile Text.isWordCharacter)

/-- A text from a position on with `length` characters replaced at every one
of some places. -/
def replaceAt (replacement : List Char) (length : Nat) (text : List Char) :
    Nat → List Nat → List Char
  | position, [] => text.drop position
  | position, start :: starts =>
    (text.drop position).take (start - position) ++ replacement
      ++ replaceAt replacement length text (start + length) starts

theorem lt_length_of_prefix_drop (hw : scope ≠ []) {start : Nat}
    (h : scope <+: text.drop start) : start < text.length := by
  by_contra hlt
  rw [List.drop_eq_nil_of_le (by omega)] at h
  exact hw (List.prefix_nil.mp h)

/-- A word that is not empty has its places in every text. -/
theorem exists_found (hw : scope ≠ []) (position : Nat) :
    ∃ starts, Found scope text position starts := by
  by_cases h : ∃ start, position ≤ start ∧ scope <+: text.drop start
  · classical
    obtain ⟨hle, hpre⟩ := Nat.find_spec h
    have hlt := lt_length_of_prefix_drop hw hpre
    have hlen := List.length_pos_iff.mpr hw
    -- The first place, and those in what remains of the text behind it.
    obtain ⟨starts, hstarts⟩ := exists_found hw (Nat.find h + scope.length)
    exact ⟨_, .next hle hpre (fun other ho hother hp => Nat.find_min h hother ⟨ho, hp⟩) hstarts⟩
  · exact ⟨[], .none fun start hle hpre => h ⟨start, hle, hpre⟩⟩
termination_by text.length - position

/-- A word has its places in only one way. -/
theorem Found.unique {position : Nat} {starts others : List Nat}
    (h : Found scope text position starts) (h' : Found scope text position others) :
    starts = others := by
  induction h generalizing others with
  | none hnone =>
    cases h' with
    | none => rfl
    | next hle hpre => exact absurd hpre (hnone _ hle)
  | @next position start starts hle hpre hmin _ ih =>
    cases h' with
    | none hnone => exact absurd hpre (hnone _ hle)
    | @next _ start' _ hle' hpre' hmin' hrest' =>
      -- Neither of the two first places lies in front of the other.
      have hge : ¬start' < start := fun hlt => hmin _ hle' hlt hpre'
      have hge' : ¬start < start' := fun hlt => hmin' _ hle hlt hpre
      obtain rfl : start = start' := by omega
      rw [ih hrest']

/-- The places of a word lie behind each other, the first of them not in front
of the position. -/
theorem Found.ascending (hw : scope ≠ []) {position : Nat} {starts : List Nat}
    (h : Found scope text position starts) :
    (∀ start ∈ starts, position ≤ start) ∧ starts.Pairwise (· < ·) := by
  have hlength := List.length_pos_iff.mpr hw
  induction h with
  | none => exact ⟨by simp, .nil⟩
  | next hle _ _ _ ih =>
    refine ⟨List.forall_mem_cons.mpr ⟨hle, fun start hstart => ?_⟩,
      .cons (fun start hstart => ?_) ih.2⟩
    · have := ih.1 start hstart
      omega
    · have := ih.1 start hstart
      omega

/-! ### The pieces of a text -/

theorem scopePieces_skip (scope rest : List Char) :
    ∀ before, scopePieces scope before.length (before ++ rest) = scopePieces scope 0 rest
  | [] => rfl
  | _ :: before => scopePieces_skip scope rest before

theorem scopePieces_plain {c : Char} {rest : List Char} (h : ¬scope <+: c :: rest) :
    scopePieces scope 0 (c :: rest) = .plain c :: scopePieces scope 0 rest := by
  have hc : (!scope.isEmpty && scope.isPrefixOf (c :: rest)) = false := by
    rw [← Bool.not_eq_true, Bool.and_eq_true, List.isPrefixOf_iff_prefix]
    exact fun hp => h hp.2
  rw [scopePieces, hc]
  rfl

theorem scopePieces_reference (hw : scope ≠ []) (rest : List Char) :
    scopePieces scope 0 (scope ++ rest)
      = .reference (rest.takeWhile Text.isWordCharacter) :: scopePieces scope 0 rest := by
  obtain ⟨c, tail, rfl⟩ := List.exists_cons_of_ne_nil hw
  have hc : (!(c :: tail).isEmpty && (c :: tail).isPrefixOf (c :: (tail ++ rest))) = true := by
    simp
  rw [List.cons_append, scopePieces, hc, if_pos rfl, ← List.cons_append, List.drop_left,
    List.length_cons, Nat.add_sub_cancel, scopePieces_skip]

/-- The pieces of a text have no characters but those of the text. -/
theorem mem_of_plain_mem_scopePieces {c : Char} :
    ∀ {skip : Nat} {text : List Char}, .plain c ∈ scopePieces scope skip text → c ∈ text
  | _, [], h => absurd h (by cases ‹Nat› <;> simp [scopePieces])
  | skip + 1, _ :: text, h => List.mem_cons_of_mem _ (mem_of_plain_mem_scopePieces h)
  | 0, d :: text, h => by
    rw [scopePieces] at h
    split at h
    · rcases List.mem_cons.mp h with h | h
      · cases h
      · exact List.mem_cons_of_mem _ (mem_of_plain_mem_scopePieces h)
    · rcases List.mem_cons.mp h with h | h
      · cases h
        exact List.mem_cons_self
      · exact List.mem_cons_of_mem _ (mem_of_plain_mem_scopePieces h)

/-- A property value with the page bound has no characters but its own, those
of the binding and dots. -/
theorem mem_bindPageScope {c : Char} {value binding : String}
    (h : c ∈ (bindPageScope value binding).toList) :
    c ∈ value.toList ∨ c ∈ binding.toList ∨ c = '.' := by
  rw [bindPageScope, ScopedText.render, ScopedText.read, String.toList_ofList,
    List.mem_flatMap] at h
  obtain ⟨piece, hpiece, hc⟩ := h
  cases piece with
  | plain d =>
    obtain rfl := List.mem_singleton.mp hc
    exact .inl (mem_of_plain_mem_scopePieces hpiece)
  | reference member =>
    rcases List.mem_append.mp hc with hc | hc
    · exact .inr (.inl hc)
    · exact .inr (.inr (List.mem_singleton.mp hc))

/-- As long as the scope does not start, the pieces of a text are its
characters. -/
theorem scopePieces_append {rest : List Char} :
    ∀ {before : List Char},
      (∀ start < before.length, ¬scope <+: (before ++ rest).drop start) →
      scopePieces scope 0 (before ++ rest) = before.map .plain ++ scopePieces scope 0 rest := by
  intro before
  induction before with
  | nil => exact fun _ => rfl
  | cons c before ih =>
    intro h
    -- Nowhere in front of the rest does the scope start: not here, and not further on.
    have hfirst : ¬scope <+: c :: (before ++ rest) := h 0 (Nat.succ_pos _)
    have hlater : ∀ start < before.length, ¬scope <+: (before ++ rest).drop start :=
      fun start hstart => h (start + 1) (Nat.succ_lt_succ hstart)
    rw [List.cons_append, scopePieces_plain hfirst, ih hlater]
    rfl

/-- The pieces of a text without the scope are its characters. -/
theorem scopePieces_of_none (h : ∀ start, ¬scope <+: text.drop start) :
    scopePieces scope 0 text = text.map .plain := by
  have happend : scopePieces scope 0 (text ++ []) = text.map .plain ++ scopePieces scope 0 [] :=
    scopePieces_append fun start _ => by rw [List.append_nil]; exact h start
  rwa [List.append_nil, scopePieces, List.append_nil] at happend

/-- The pieces of a text up to the first place of the scope, and behind it. -/
theorem scopePieces_of_first (hw : scope ≠ []) {before rest : List Char}
    (h : ∀ start < before.length, ¬scope <+: (before ++ scope ++ rest).drop start) :
    scopePieces scope 0 (before ++ scope ++ rest)
      = before.map .plain ++ .reference (rest.takeWhile Text.isWordCharacter)
        :: scopePieces scope 0 rest := by
  rw [List.append_assoc] at h ⊢
  rw [scopePieces_append h, scopePieces_reference hw]

/-- The text between a position and the next place, and what follows. -/
theorem drop_eq_of_prefix {position start : Nat} (hle : position ≤ start)
    (h : scope <+: text.drop start) :
    text.drop position = (text.drop position).take (start - position) ++ scope
      ++ text.drop (start + scope.length) := by
  obtain ⟨rest, hrest⟩ := h
  have hd : (text.drop position).drop (start - position) = text.drop start := by
    rw [List.drop_drop, Nat.add_sub_cancel' hle]
  have hr : text.drop (start + scope.length) = rest := by
    rw [← List.drop_drop, ← hrest, List.drop_left]
  rw [hr, List.append_assoc, hrest, ← hd, List.take_append_drop]

/-- The pieces of a text from a position on, given the next place. -/
theorem scopePieces_of_next (hw : scope ≠ []) {position start : Nat} (hle : position ≤ start)
    (hpre : scope <+: text.drop start)
    (hmin : ∀ other, position ≤ other → other < start → ¬scope <+: text.drop other) :
    scopePieces scope 0 (text.drop position)
      = ((text.drop position).take (start - position)).map .plain
        ++ .reference ((text.drop (start + scope.length)).takeWhile Text.isWordCharacter)
          :: scopePieces scope 0 (text.drop (start + scope.length)) := by
  have hsplit := drop_eq_of_prefix hle hpre
  rw [hsplit]
  have hlen : ((text.drop position).take (start - position)).length ≤ start - position :=
    List.length_take_le _ _
  rw [scopePieces_of_first hw, ← hsplit]
  intro other hother
  rw [← hsplit, List.drop_drop]
  exact hmin _ (by omega) (by omega)

/-! ### Members and rendering -/

theorem filterMap_plain (cs : List Char) :
    (cs.map ScopePiece.plain).filterMap ScopedText.memberOf = [] := by
  induction cs with
  | nil => rfl
  | cons c cs ih => simp [ScopedText.memberOf]

theorem flatMap_plain (binding cs : List Char) :
    (cs.map ScopePiece.plain).flatMap (ScopedText.renderPiece binding) = cs := by
  induction cs with
  | nil => rfl
  | cons c cs ih => simpa [ScopedText.renderPiece] using ih

theorem filterMap_scopePieces (hw : scope ≠ []) {position : Nat} {starts : List Nat}
    (h : Found scope text position starts) :
    (scopePieces scope 0 (text.drop position)).filterMap ScopedText.memberOf
      = starts.map fun start => wordAt text (start + scope.length) := by
  induction h with
  | none hnone =>
    rw [scopePieces_of_none, filterMap_plain]
    · rfl
    · intro start
      rw [List.drop_drop]
      exact hnone _ (Nat.le_add_right _ _)
  | next hle hpre hmin _ ih =>
    rw [scopePieces_of_next hw hle hpre hmin, List.filterMap_append, filterMap_plain,
      List.nil_append, List.filterMap_cons, ih]
    rfl

theorem flatMap_scopePieces (hw : scope ≠ []) (binding : List Char) {position : Nat}
    {starts : List Nat} (h : Found scope text position starts) :
    (scopePieces scope 0 (text.drop position)).flatMap (ScopedText.renderPiece binding)
      = replaceAt binding scope.length text position starts := by
  induction h with
  | none hnone =>
    rw [scopePieces_of_none, flatMap_plain, replaceAt]
    intro start
    rw [List.drop_drop]
    exact hnone _ (Nat.le_add_right _ _)
  | next hle hpre hmin _ ih =>
    rw [scopePieces_of_next hw hle hpre hmin, List.flatMap_append, flatMap_plain,
      List.flatMap_cons, ih, replaceAt, List.append_assoc]
    rfl

namespace ScopedText

/-- What is put in place of a scope: a binding and a dot, or nothing. -/
def replacement : Option String → List Char
  | some binding => binding.toList ++ ['.']
  | none => []

theorem render_eq (text scope : String) (binding? : Option String) :
    (read text scope).render binding? = String.ofList
      ((scopePieces scope.toList 0 text.toList).flatMap (renderPiece (replacement binding?))) := by
  cases binding? <;> rfl

/-- The scope of a text has its places, and no others. -/
theorem exists_places {scope : String} (hw : scope ≠ "") (text : String) :
    ∃ starts, ∀ others, Found scope.toList text.toList 0 others ↔ others = starts := by
  obtain ⟨starts, hstarts⟩ : ∃ starts, Found scope.toList text.toList 0 starts :=
    exists_found (by simpa using hw) 0
  exact ⟨starts, fun others => ⟨fun h => h.unique hstarts, fun h => h ▸ hstarts⟩⟩

variable {starts : List Nat}

/-- The members of a text are the words behind the places of its scope. -/
theorem members_of_found {scope text : String} (hw : scope ≠ "")
    (h : Found scope.toList text.toList 0 starts) :
    (read text scope).members
      = starts.map fun start => wordAt text.toList (start + scope.toList.length) :=
  filterMap_scopePieces (by simpa using hw) h

/-- A text is rendered by putting its replacement at the places of its
scope. -/
theorem render_of_found {scope text : String} (hw : scope ≠ "")
    (h : Found scope.toList text.toList 0 starts) (binding? : Option String) :
    (read text scope).render binding? = String.ofList
      (replaceAt (replacement binding?) scope.toList.length text.toList 0 starts) := by
  rw [render_eq]
  exact congrArg String.ofList (flatMap_scopePieces (by simpa using hw) _ h)

end ScopedText

end Pagewright
