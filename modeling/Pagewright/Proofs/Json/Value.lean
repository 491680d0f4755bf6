/-
Values as symbols of a document.

* `Value.nesting` — how deep brackets are nested in a value; `nesting_list_le`
  and `nesting_object_le` bound it by the parts;
* `Value.Writes` — the symbols that write a value, with whatever white space
  in front of it and between its parts; `Writes.exists_cons` says how they
  can begin;
* `writes_compact`, `writes_pretty` — a value is written without any space,
  and with one entry to a line;
* `WritesElements.length_lt`, `WritesEntries.length_lt` — every part takes at
  least one symbol.
-/
import Pagewright.Json.Skip
import Pagewright.Proofs.Json.Text

namespace Pagewright.Json.Value

/-! ### Nesting -/

mutual

/-- How deep brackets are nested in a value. -/
def nesting : Value → Nat
  | .list values => nestingAll values + 1
  | .object entries => nestingEntries entries + 1
  | _ => 0

/-- The deepest nesting among some values. -/
def nestingAll : List Value → Nat
  | [] => 0
  | value :: values => max value.nesting (nestingAll values)

/-- The deepest nesting among the values of some entries. -/
def nestingEntries : List (String × Value) → Nat
  | [] => 0
  | (_, value) :: entries => max value.nesting (nestingEntries entries)

end

theorem nestingAll_le {values : List Value} {depth : Nat} :
    nestingAll values ≤ depth ↔ ∀ value ∈ values, value.nesting ≤ depth := by
  induction values with
  | nil => simp [nestingAll]
  | cons value values ih => rw [nestingAll, Nat.max_le, ih, List.forall_mem_cons]

theorem nestingEntries_le {entries : List (String × Value)} {depth : Nat} :
    nestingEntries entries ≤ depth ↔ ∀ entry ∈ entries, entry.2.nesting ≤ depth := by
  induction entries with
  | nil => simp [nestingEntries]
  | cons entry entries ih => rw [nestingEntries, Nat.max_le, ih, List.forall_mem_cons]

theorem nesting_list_le {α : Type} {values : List α} {write : α → Value} {depth : Nat} :
    (list (values.map write)).nesting ≤ depth + 1 ↔
      ∀ value ∈ values, (write value).nesting ≤ depth := by
  rw [nesting, Nat.succ_le_succ_iff, nestingAll_le, List.forall_mem_map]

theorem nesting_object_le {entries : List (String × Value)} {depth : Nat} :
    (object entries).nesting ≤ depth + 1 ↔ ∀ entry ∈ entries, entry.2.nesting ≤ depth := by
  rw [nesting, Nat.succ_le_succ_iff, nestingEntries_le]

/-! ### Symbols -/

/-- White space between the parts of a document. -/
def Blank (space : Input) : Prop :=
  ∀ symbol ∈ space, isBlankSymbol symbol = true

theorem blank_nil : Blank [] :=
  fun _ hmem => absurd hmem List.not_mem_nil

theorem blank_space : Blank [.char ' '] :=
  List.forall_mem_singleton.mpr rfl

/-- What stands in front of a part of a list or an object: a comma, unless it
is the first part. -/
inductive Lead : Bool → Input → Prop
  | first : Lead true []
  | next {space : Input} : Blank space → Lead false (space ++ [.char ','])

mutual

/-- The ways to write a value, with white space in front of it and between its parts. -/
inductive Writes : Value → Input → Prop
  | leaf {value : Value} {space : Input} : value.nesting = 0 → Blank space →
    Writes value (space ++ Input.ofText value.compact)
  | list {values : List Value} {space elements : Input} : Blank space →
    WritesElements true values elements → Writes (.list values) (space ++ .char '[' :: elements)
  | object {entries : List (String × Value)} {space parts : Input} : Blank space →
    WritesEntries true entries parts → Writes (.object entries) (space ++ .char '{' :: parts)

/-- The ways to write the elements of a list, up to its end. -/
inductive WritesElements : Bool → List Value → Input → Prop
  | nil {first : Bool} {space : Input} : Blank space →
    WritesElements first [] (space ++ [.char ']'])
  | cons {first : Bool} {value : Value} {values : List Value} {lead part elements : Input} :
    Lead first lead → Writes value part → WritesElements false values elements →
    WritesElements first (value :: values) (lead ++ (part ++ elements))

/-- The ways to write the entries of an object, up to its end. -/
inductive WritesEntries : Bool → List (String × Value) → Input → Prop
  | nil {first : Bool} {space : Input} : Blank space →
    WritesEntries first [] (space ++ [.char '}'])
  | cons {first : Bool} {key : String} {value : Value} {entries : List (String × Value)}
    {lead space part parts : Input} :
    Lead first lead → Blank space → Writes value part → WritesEntries false entries parts →
    WritesEntries first ((key, value) :: entries)
      (lead ++ (space ++ .char '"' :: (written key ++ .char '"' :: .char ':' :: (part ++ parts))))

end

/-! ### Two ways to write a value -/

theorem ofText_comma : Input.ofText "," = [.char ','] := rfl

theorem ofText_colon : Input.ofText ":" = [.char ':'] := rfl

theorem ofText_spacedColon : Input.ofText ": " = .char ':' :: [.char ' '] := rfl

theorem ofText_openList : Input.ofText "[" = [.char '['] := rfl

theorem ofText_closeList : Input.ofText "]" = [.char ']'] := rfl

theorem ofText_openObject : Input.ofText "\x7b" = [.char '{'] := rfl

theorem ofText_closeObject : Input.ofText "\x7d" = [.char '}'] := rfl

theorem writes_leaf {value : Value} (h : value.nesting = 0) :
    value.Writes (Input.ofText value.compact) := by
  rw [← List.nil_append (Input.ofText value.compact)]
  exact .leaf h blank_nil

theorem writes_list {values : List Value} {elements : Input}
    (h : WritesElements true values elements) : (list values).Writes (.char '[' :: elements) := by
  rw [← List.nil_append (_ :: _)]
  exact .list blank_nil h

theorem writes_object {entries : List (String × Value)} {parts : Input}
    (h : WritesEntries true entries parts) : (object entries).Writes (.char '{' :: parts) := by
  rw [← List.nil_append (_ :: _)]
  exact .object blank_nil h

theorem lead_comma : Lead false [.char ','] := by
  rw [← List.nil_append [_]]
  exact .next blank_nil

section Entries

variable {key : String} {value : Value} {entries : List (String × Value)}
  {space part parts : Input} (hspace : Blank space) (hpart : value.Writes part)
  (hparts : WritesEntries false entries parts)

include hspace hpart hparts

theorem writesEntries_first : WritesEntries true ((key, value) :: entries)
    (space ++ .char '"' :: (written key ++ .char '"' :: .char ':' :: (part ++ parts))) :=
  @WritesEntries.cons true key value entries [] space part parts .first hspace hpart hparts

theorem writesEntries_next : WritesEntries false ((key, value) :: entries)
    (.char ',' :: (space ++ .char '"' ::
      (written key ++ .char '"' :: .char ':' :: (part ++ parts)))) :=
  @WritesEntries.cons false key value entries _ space part parts lead_comma hspace hpart hparts

end Entries

mutual

/-- A value is written without any space. -/
theorem writes_compact : ∀ value : Value, value.Writes (Input.ofText value.compact)
  | .null => writes_leaf rfl
  | .boolean _ => writes_leaf rfl
  | .natural _ => writes_leaf rfl
  | .string _ => writes_leaf rfl
  | .list [] => by
    have hsymbols : Input.ofText (compact (.list [])) = [.char '[', .char ']'] := rfl
    rw [hsymbols]
    exact writes_list (.nil blank_nil)
  | .list (value :: values) => by
    rw [compact, ofText_append, ofText_append, ofText_openList, List.append_assoc]
    exact writes_list (.cons .first (writes_compact value) (writes_compactElements values))
  | .object [] => by
    have hsymbols : Input.ofText (compact (.object [])) = [.char '{', .char '}'] := rfl
    rw [hsymbols]
    exact writes_object (.nil blank_nil)
  | .object ((key, value) :: entries) => by
    rw [compact, ofText_append, ofText_append, ofText_append, ofText_append, ofText_quote,
      ofText_colon, ofText_openObject]
    simp only [List.append_assoc, List.cons_append, List.nil_append]
    exact writes_object (writesEntries_first blank_nil (writes_compact value)
      (writes_compactEntries entries))

theorem writes_compactElements : ∀ values : List Value,
    WritesElements false values (Input.ofText (compactElements values))
  | [] => .nil blank_nil
  | value :: values => by
    rw [compactElements, ofText_append, ofText_append, ofText_comma, List.append_assoc]
    exact .cons lead_comma (writes_compact value) (writes_compactElements values)

theorem writes_compactEntries : ∀ entries : List (String × Value),
    WritesEntries false entries (Input.ofText (compactEntries entries))
  | [] => .nil blank_nil
  | (key, value) :: entries => by
    rw [compactEntries, ofText_append, ofText_append, ofText_append, ofText_append, ofText_quote,
      ofText_colon, ofText_comma]
    simp only [List.append_assoc, List.cons_append, List.nil_append]
    exact writesEntries_next blank_nil (writes_compact value) (writes_compactEntries entries)

end

theorem blank_newLine (level : Nat) : Blank (Input.ofText (newLine level)) := by
  intro symbol hmem
  rw [newLine, Input.ofText, String.toList_ofList, List.map_cons, List.map_replicate] at hmem
  rcases List.mem_cons.mp hmem with rfl | hmem
  · rfl
  · rw [List.eq_of_mem_replicate hmem]
    rfl

/-- More white space may stand in front of a value. -/
theorem Writes.space {value : Value} {space input : Input} (hspace : Blank space)
    (h : value.Writes input) : value.Writes (space ++ input) := by
  have happend {space' : Input} (hspace' : Blank space') : Blank (space ++ space') :=
    fun symbol hmem => (List.mem_append.mp hmem).elim (hspace symbol) (hspace' symbol)
  cases h with
  | leaf hleaf hspace' =>
    rw [← List.append_assoc]
    exact .leaf hleaf (happend hspace')
  | list hspace' helements =>
    rw [← List.append_assoc]
    exact .list (happend hspace') helements
  | object hspace' hentries =>
    rw [← List.append_assoc]
    exact .object (happend hspace') hentries

mutual

/-- A value is written with one entry to a line. -/
theorem writes_prettyAt (level : Nat) : ∀ value : Value,
    value.Writes (Input.ofText (value.prettyAt level))
  | .null => writes_compact .null
  | .boolean value => writes_compact (.boolean value)
  | .natural value => writes_compact (.natural value)
  | .string text => writes_compact (.string text)
  | .list [] => writes_compact (.list [])
  | .list (value :: values) => by
    rw [prettyAt, ofText_append, ofText_append, ofText_append, ofText_openList, List.append_assoc,
      List.append_assoc, ← List.append_assoc (Input.ofText (newLine (level + 1)))]
    exact writes_list (.cons .first ((writes_prettyAt (level + 1) value).space
      (blank_newLine (level + 1))) (writes_prettyElements level values))
  | .object [] => writes_compact (.object [])
  | .object ((key, value) :: entries) => by
    rw [prettyAt, ofText_append, ofText_append, ofText_append, ofText_append, ofText_append,
      ofText_quote, ofText_spacedColon, ofText_openObject]
    simp only [List.append_assoc, List.cons_append, List.nil_append]
    have hvalue : value.Writes (.char ' ' :: Input.ofText (value.prettyAt (level + 1))) :=
      (writes_prettyAt (level + 1) value).space blank_space
    exact writes_object (writesEntries_first (blank_newLine (level + 1)) hvalue
      (writes_prettyEntries level entries))

theorem writes_prettyElements (level : Nat) : ∀ values : List Value,
    WritesElements false values (Input.ofText (prettyElements level values))
  | [] => by
    rw [prettyElements, ofText_append, ofText_closeList]
    exact .nil (blank_newLine level)
  | value :: values => by
    rw [prettyElements, ofText_append, ofText_append, ofText_append, ofText_comma,
      List.append_assoc, List.append_assoc, ← List.append_assoc (Input.ofText (newLine (level + 1)))]
    exact .cons lead_comma ((writes_prettyAt (level + 1) value).space
      (blank_newLine (level + 1))) (writes_prettyElements level values)

theorem writes_prettyEntries (level : Nat) : ∀ entries : List (String × Value),
    WritesEntries false entries (Input.ofText (prettyEntries level entries))
  | [] => by
    rw [prettyEntries, ofText_append, ofText_closeObject]
    exact .nil (blank_newLine level)
  | (key, value) :: entries => by
    rw [prettyEntries, ofText_append, ofText_append, ofText_append, ofText_append, ofText_append,
      ofText_quote, ofText_spacedColon, ofText_comma]
    simp only [List.append_assoc, List.cons_append, List.nil_append]
    have hvalue : value.Writes (.char ' ' :: Input.ofText (value.prettyAt (level + 1))) :=
      (writes_prettyAt (level + 1) value).space blank_space
    exact writesEntries_next (blank_newLine (level + 1)) hvalue
      (writes_prettyEntries level entries)

end

theorem writes_pretty (value : Value) : value.Writes (Input.ofText value.pretty) :=
  writes_prettyAt 0 value

/-! ### Beginnings and lengths -/

theorem dropBlanks_append {space rest : Input} (hspace : Blank space) {symbol : Symbol}
    (h : isBlankSymbol symbol = false) :
    dropBlanks (space ++ symbol :: rest) = symbol :: rest := by
  rw [dropBlanks, List.dropWhile_append_of_pos hspace,
    List.dropWhile_cons_of_neg (by rw [h]; exact Bool.false_ne_true)]

/-- A value without parts begins with no white space and with no bracket. -/
theorem exists_compact_cons {value : Value} (h : value.nesting = 0) :
    ∃ c rest, Input.ofText value.compact = .char c :: rest ∧
      isBlankSymbol (.char c) = false ∧ c ≠ ']' := by
  cases value with
  | null => exact ⟨'n', _, rfl, by decide, by decide⟩
  | boolean value =>
    cases value with
    | false => exact ⟨'f', _, rfl, by decide, by decide⟩
    | true => exact ⟨'t', _, rfl, by decide, by decide⟩
  | natural value =>
    have htext : Input.ofText (natural value).compact = (Nat.toDigits 10 value).map .char := by
      simp [compact, Input.ofText]
    obtain ⟨digit, digits, hdigits⟩ :=
      List.exists_cons_of_ne_nil (Nat.toDigits_ne_nil (n := value) (b := 10))
    have hdigit : digit.isDigit = true :=
      Nat.isDigit_of_mem_toDigits (by decide) (by decide) (hdigits ▸ List.mem_cons_self)
    refine ⟨digit, digits.map .char, by rw [htext, hdigits, List.map_cons], ?_, ?_⟩
    · rw [← Bool.not_eq_true, isBlankSymbol]
      intro hblank
      simp only [Bool.or_eq_true, beq_iff_eq, Symbol.char.injEq] at hblank
      rcases hblank with ((rfl | rfl) | rfl) | rfl <;> exact absurd hdigit (by decide)
    · rintro rfl
      exact absurd hdigit (by decide)
  | string text => exact ⟨'"', _, ofText_quote text, by decide, by decide⟩
  | list values => cases h
  | object entries => cases h

/-- Behind the white space in front of it, a value begins with no closing bracket. -/
theorem Writes.exists_cons {value : Value} {input : Input} (h : value.Writes input) :
    ∃ space c rest, input = space ++ .char c :: rest ∧ Blank space ∧
      isBlankSymbol (.char c) = false ∧ c ≠ ']' ∧ value.Writes (.char c :: rest) := by
  cases h with
  | @leaf _ space hleaf hspace =>
    obtain ⟨c, rest, hcompact, hblank, hend⟩ := exists_compact_cons hleaf
    refine ⟨space, c, rest, by rw [hcompact], hspace, hblank, hend, ?_⟩
    rw [← hcompact]
    exact writes_leaf hleaf
  | @list _ space _ hspace helements =>
    exact ⟨space, '[', _, rfl, hspace, rfl, by decide, writes_list helements⟩
  | @object _ space _ hspace hentries =>
    exact ⟨space, '{', _, rfl, hspace, rfl, by decide, writes_object hentries⟩

theorem WritesElements.length_lt : ∀ {values : List Value} {first : Bool} {elements : Input},
    WritesElements first values elements → values.length < elements.length
  | [], _, _, .nil _ => by simp
  | value :: values, _, _, .cons _ hvalue hvalues => by
    obtain ⟨space, c, rest, rfl, -⟩ := hvalue.exists_cons
    have hrest := hvalues.length_lt
    simp only [List.length_append, List.length_cons]
    omega

theorem WritesEntries.length_lt : ∀ {entries : List (String × Value)} {first : Bool}
    {parts : Input}, WritesEntries first entries parts → entries.length < parts.length
  | [], _, _, .nil _ => by simp
  | entry :: entries, _, _, .cons _ _ _ hentries => by
    have hrest := hentries.length_lt
    simp only [List.length_append, List.length_cons]
    omega

end Pagewright.Json.Value
