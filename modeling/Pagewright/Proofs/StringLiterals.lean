/-
String literals.

Behind the quote that opens it, a literal is read in units: a character by itself,
or a backslash with the character behind it, and with the four characters behind
that if it is a `u`.  The first quote that is a unit by itself closes the literal.

* `units_flatten_append` — what is written in units is read in these units;
* `readLiteral?_stringLiteral` — so a text that is escaped is read back;
* `initializer_readable` — a first value without quotes around it gives a literal
  that stands for it;
* `Field.cell_literal_iff` — the cell of a string field holds one literal exactly
  if the quotes around its first value, if there are any, are those of a literal.
-/
import Pagewright.StateHolder

namespace Pagewright.Kotlin

/-! ### Units -/

/-- The units in which the inside of a literal is read. -/
def units : List Char → List (List Char)
  | [] => []
  | '\\' :: 'u' :: a :: b :: c :: d :: rest => ['\\', 'u', a, b, c, d] :: units rest
  | '\\' :: c :: rest => ['\\', c] :: units rest
  | c :: rest => [c] :: units rest

/-- The letters that a backslash makes a whole escape with. -/
def escapeLetters : List Char := "tbnr'\"\\$".toList

/-- Whether a unit can be part of a literal: an escape that is complete, or a
character that neither ends the literal or its line nor begins an escape. -/
def isUnit : List Char → Bool
  | [c] => c != '"' && c != '\\' && c != '\n'
  | ['\\', letter] => escapeLetters.contains letter
  | ['\\', 'u', a, b, c, d] => [a, b, c, d].all Char.isHexDigit
  | _ => false

/-- A text is one literal: quotes at its ends, and units between them. -/
def IsLiteral (text : List Char) : Prop :=
  ∃ inside, text = '"' :: inside ++ ['"'] ∧ ∀ unit ∈ units inside, isUnit unit = true

theorem units_cons {c : Char} (h : c ≠ '\\') (rest : List Char) :
    units (c :: rest) = [c] :: units rest := by
  simp [units, h]

theorem units_letter {letter : Char} (h : letter ≠ 'u') (rest : List Char) :
    units ('\\' :: letter :: rest) = ['\\', letter] :: units rest := by
  simp [units, h]

theorem flatten_units (text : List Char) : (units text).flatten = text := by
  fun_induction units text <;> simp_all

theorem units_append {unit : List Char} (h : isUnit unit = true) (rest : List Char) :
    units (unit ++ rest) = unit :: units rest := by
  unfold isUnit at h
  split at h
  · rename_i c
    have hc : c ≠ '\\' := by
      rintro rfl
      simp at h
    exact units_cons hc rest
  · rename_i letter
    have hletter : letter ≠ 'u' := by
      rintro rfl
      exact absurd h (by decide)
    rw [List.cons_append, List.cons_append, List.nil_append]
    exact units_letter hletter rest
  · rfl
  · simp at h

/-- What is written in units is read in these units, whatever follows. -/
theorem units_flatten_append {parts : List (List Char)}
    (h : ∀ unit ∈ parts, isUnit unit = true) (rest : List Char) :
    units (parts.flatten ++ rest) = parts ++ units rest := by
  induction parts with
  | nil => rfl
  | cons unit parts ih =>
    obtain ⟨hunit, hparts⟩ := List.forall_mem_cons.mp h
    rw [List.flatten_cons, List.append_assoc, units_append hunit, ih hparts, List.cons_append]

/-! ### Reading -/

/-- The character that a backslash and a letter stand for. -/
def escaped? : Char → Option Char
  | 'n' => some '\n'
  | 'r' => some '\r'
  | 't' => some '\t'
  | '"' => some '"'
  | '\\' => some '\\'
  | '$' => some '$'
  | _ => none

/-- The character that a unit stands for. -/
def unitValue? : List Char → Option Char
  | [c] => if c = '\\' then none else some c
  | ['\\', letter] => escaped? letter
  | _ => none

/-- The text that units stand for up to the closing quote, and what follows the
quote. -/
def readUnits? : List (List Char) → Option (List Char × List Char)
  | [] => none
  | unit :: later =>
    if unit = ['"'] then some ([], later.flatten)
    else do
      let c ← unitValue? unit
      let (text, rest) ← readUnits? later
      return (c :: text, rest)

/-- The text that the literal at the front of a source text stands for, and what
follows the literal. -/
def readLiteral? : List Char → Option (List Char × List Char)
  | '"' :: source => readUnits? (units source)
  | _ => none

/-- The characters that are never written as they are. -/
def special : List Char := ['"', '\\', '$', '\n', '\r', '\t']

/-- A character is written with a letter that stands for it, or as it is. -/
theorem escapeChar_cases (c : Char) :
    (∃ letter ∈ escapeLetters, escapeChar c = ['\\', letter] ∧ escaped? letter = some c) ∨
    (escapeChar c = [c] ∧ c ∉ special) := by
  by_cases h : c ∈ special
  · left
    simp only [special, List.mem_cons, List.not_mem_nil, or_false] at h
    rcases h with rfl | rfl | rfl | rfl | rfl | rfl
    · exact ⟨'"', by decide, rfl, rfl⟩
    · exact ⟨'\\', by decide, rfl, rfl⟩
    · exact ⟨'$', by decide, rfl, rfl⟩
    · exact ⟨'n', by decide, rfl, rfl⟩
    · exact ⟨'r', by decide, rfl, rfl⟩
    · exact ⟨'t', by decide, rfl, rfl⟩
  · have hplain : escapeChar c = [c] := by
      simp only [special, List.mem_cons, List.not_mem_nil, or_false, not_or] at h
      simp [escapeChar, h]
    exact .inr ⟨hplain, h⟩

theorem isUnit_escapeChar (c : Char) : isUnit (escapeChar c) = true := by
  rcases escapeChar_cases c with ⟨letter, hletter, hform, -⟩ | ⟨hform, hc⟩
  · rw [hform]
    simpa [isUnit] using hletter
  · rw [hform]
    simp only [special, List.mem_cons, List.not_mem_nil, or_false, not_or] at hc
    simp [isUnit, hc]

theorem escapeChar_ne_singleton {c d : Char} (hd : d ∈ special) : escapeChar c ≠ [d] := by
  intro h
  rcases escapeChar_cases c with ⟨letter, -, hform, -⟩ | ⟨hform, hc⟩
  · simp [hform] at h
  · obtain rfl : c = d := by simpa [hform] using h
    exact hc hd

theorem unitValue?_escapeChar (c : Char) : unitValue? (escapeChar c) = some c := by
  rcases escapeChar_cases c with ⟨letter, -, hform, hvalue⟩ | ⟨hform, hc⟩
  · rw [hform]
    exact hvalue
  · rw [hform]
    have hslash : c ≠ '\\' := by
      rintro rfl
      exact hc (by decide)
    simp [unitValue?, hslash]

/-- An escaped text is read in the units that its characters are written as. -/
theorem units_flatMap_escapeChar (text rest : List Char) :
    units (text.flatMap escapeChar ++ rest) = text.map escapeChar ++ units rest := by
  rw [List.flatMap_def]
  refine units_flatten_append ?_ rest
  intro unit hunit
  obtain ⟨c, -, rfl⟩ := List.mem_map.mp hunit
  exact isUnit_escapeChar c

theorem readUnits?_map_escapeChar (text rest : List Char) :
    readUnits? (text.map escapeChar ++ units ('"' :: rest)) = some (text, rest) := by
  induction text with
  | nil =>
    rw [List.map_nil, List.nil_append, units_cons (by decide), readUnits?, if_pos rfl,
      flatten_units]
  | cons c text ih =>
    rw [List.map_cons, List.cons_append, readUnits?, if_neg (escapeChar_ne_singleton (by decide)),
      unitValue?_escapeChar, ih]
    rfl

/-- **A literal is read as the text that it was made of.** -/
theorem readLiteral?_stringLiteral (text rest : List Char) :
    readLiteral? (stringLiteral text ++ rest) = some (text, rest) := by
  have hliteral : stringLiteral text ++ rest
      = '"' :: (text.flatMap escapeChar ++ '"' :: rest) := by
    simp [stringLiteral]
  rw [hliteral, readLiteral?, units_flatMap_escapeChar, readUnits?_map_escapeChar]

theorem units_escaped (text : List Char) :
    units (text.flatMap escapeChar) = text.map escapeChar := by
  have hunits := units_flatMap_escapeChar text []
  rwa [List.append_nil, units, List.append_nil] at hunits

theorem isLiteral_stringLiteral (text : List Char) : IsLiteral (stringLiteral text) := by
  refine ⟨text.flatMap escapeChar, rfl, ?_⟩
  rw [units_escaped]
  intro unit hunit
  obtain ⟨c, -, rfl⟩ := List.mem_map.mp hunit
  exact isUnit_escapeChar c

/-! ### First values -/

theorem isQuoted_iff {text : List Char} :
    isQuoted text = true ↔ ∃ inside, text = '"' :: inside ++ ['"'] := by
  constructor
  · intro h
    simp only [isQuoted, Bool.and_eq_true, decide_eq_true_eq, beq_iff_eq] at h
    obtain ⟨⟨hlength, hfirst⟩, hlast⟩ := h
    obtain ⟨rest, rfl⟩ := List.head?_eq_some_iff.mp hfirst
    -- The quote at the end is not the one in front.
    have hne : rest ≠ [] := by
      rintro rfl
      simp at hlength
    rw [List.getLast?_cons_of_ne_nil hne] at hlast
    obtain ⟨inside, rfl⟩ := List.getLast?_eq_some_iff.mp hlast
    exact ⟨inside, rfl⟩
  · rintro ⟨inside, rfl⟩
    simp [isQuoted, List.getLast?_cons_of_ne_nil]

theorem isQuoted_eq_false_iff {text : List Char} :
    isQuoted text = false ↔ ∀ inside, text ≠ '"' :: inside ++ ['"'] := by
  rw [← Bool.not_eq_true, isQuoted_iff, not_exists]

theorem initializer_of_isQuoted {initial : String} (h : isQuoted initial.toList = true) :
    initializer .string initial = initial := by
  simp [initializer, h]

theorem toList_initializer {initial : String}
    (h : ∀ inside, initial.toList ≠ '"' :: inside ++ ['"']) :
    (initializer .string initial).toList = stringLiteral initial.toList := by
  simp [initializer, isQuoted_eq_false_iff.mpr h]

theorem readLiteral?_initializer {initial : String}
    (h : ∀ inside, initial.toList ≠ '"' :: inside ++ ['"']) (rest : List Char) :
    readLiteral? ((initializer .string initial).toList ++ rest)
      = some (initial.toList, rest) := by
  rw [toList_initializer h, readLiteral?_stringLiteral]

theorem isLiteral_quoted {inside : List Char} :
    IsLiteral ('"' :: inside ++ ['"']) ↔ ∀ unit ∈ units inside, isUnit unit = true := by
  constructor
  · rintro ⟨inside', hinside, hunits⟩
    obtain rfl : inside = inside' := by simpa using hinside
    exact hunits
  · intro hunits
    exact ⟨inside, rfl, hunits⟩

/-- White space that would end a line or hide in it is never written as it is. -/
theorem not_mem_stringLiteral {c : Char} (hc : c ∈ ['\n', '\r', '\t']) (text : List Char) :
    c ∉ stringLiteral text := by
  obtain ⟨hspecial, hquote, hslash, hletters⟩ :
      c ∈ special ∧ c ≠ '"' ∧ c ≠ '\\' ∧ c ∉ escapeLetters := by
    simp only [List.mem_cons, List.not_mem_nil, or_false] at hc
    rcases hc with rfl | rfl | rfl <;> decide
  have hchars : ∀ d, c ∉ escapeChar d := by
    intro d hmem
    rcases escapeChar_cases d with ⟨letter, hletter, hform, -⟩ | ⟨hform, hd⟩
    · have hsame : c = letter := by simpa [hform, hslash] using hmem
      exact hletters (hsame ▸ hletter)
    · obtain rfl : c = d := by simpa [hform] using hmem
      exact hd hspecial
  simp [stringLiteral, hquote, hchars]

/-- **Escaping a first value loses nothing.**  A text without quotes around it gives
one literal, which holds no unescaped dollar sign, and no line feed, carriage
return or tab.  Wherever the literal stands, it is read as that text, and what
follows it is not touched.  So different texts give different literals. -/
theorem initializer_readable {initial : String}
    (h : ∀ inside, initial.toList ≠ '"' :: inside ++ ['"']) :
    (∃ inside, (initializer .string initial).toList = '"' :: inside ++ ['"'] ∧
      (∀ unit ∈ units inside, isUnit unit = true) ∧
      ['"'] ∉ units inside ∧ ['$'] ∉ units inside) ∧
    (∀ c ∈ ['\n', '\r', '\t'], c ∉ (initializer .string initial).toList) ∧
    (∀ rest, readLiteral? ((initializer .string initial).toList ++ rest)
      = some (initial.toList, rest)) ∧
    ∀ other : String, (∀ inside, other.toList ≠ '"' :: inside ++ ['"']) →
      initializer .string other = initializer .string initial → other = initial := by
  refine ⟨⟨initial.toList.flatMap escapeChar, toList_initializer h, ?_⟩, ?_,
    readLiteral?_initializer h, ?_⟩
  · have hplain : ∀ c ∈ special, [c] ∉ units (initial.toList.flatMap escapeChar) := by
      intro c hc hmem
      rw [units_escaped, List.mem_map] at hmem
      obtain ⟨d, -, hd⟩ := hmem
      exact escapeChar_ne_singleton hc hd
    exact ⟨isLiteral_quoted.mp (isLiteral_stringLiteral initial.toList),
      hplain '"' (by decide), hplain '$' (by decide)⟩
  · intro c hc
    rw [toList_initializer h]
    exact not_mem_stringLiteral hc initial.toList
  · intro other hother heq
    have hread := readLiteral?_initializer hother []
    rw [heq, readLiteral?_initializer h] at hread
    exact (String.toList_inj.mp (by simpa using hread)).symm

/-- A text with a backslash at its end, behind everything else that is escaped. -/
def awkwardValue : String := "C:\\new \"$5\"\n\t\\"

/-- The text is read back from the literal in front of a parenthesis. -/
theorem awkwardValue_readable :
    (∀ inside, awkwardValue.toList ≠ '"' :: inside ++ ['"']) ∧
    initializer .string awkwardValue = "\"C:\\\\new \\\"\\$5\\\"\\n\\t\\\\\"" ∧
    readLiteral? ((initializer .string awkwardValue).toList ++ [')'])
      = some (awkwardValue.toList, [')']) ∧
    initializer .string "C:\\new \"$5\"\n\t" ≠ initializer .string awkwardValue := by
  have hvalue : ∀ inside, awkwardValue.toList ≠ '"' :: inside ++ ['"'] :=
    isQuoted_eq_false_iff.mp (by decide)
  obtain ⟨-, -, hread, hinj⟩ := initializer_readable hvalue
  refine ⟨hvalue, by decide, hread [')'], ?_⟩
  intro heq
  have hsame := hinj _ (isQuoted_eq_false_iff.mp (by decide)) heq
  exact absurd hsame (by decide)

/-! ### Values that come with quotes -/

instance (text : List Char) : Decidable (IsLiteral text) :=
  decidable_of_iff
    (isQuoted text = true ∧ ∀ unit ∈ units text.tail.dropLast, isUnit unit = true) <| by
  rw [isQuoted_iff]
  constructor
  · rintro ⟨⟨inside, rfl⟩, hunits⟩
    exact isLiteral_quoted.mpr (by simpa using hunits)
  · rintro ⟨inside, rfl, hunits⟩
    exact ⟨⟨inside, rfl⟩, by simpa using hunits⟩

end Pagewright.Kotlin

namespace Pagewright

open Kotlin

/-- **The cell of a string field holds one literal exactly if its first value has no
quotes around it or is one literal already.**  Quotes around a value are taken for
those of a literal, and nothing between them is looked at. -/
theorem Field.cell_literal_iff (name initial : String) :
    (Field.mk name .string initial).cell
      = .ok ("    val " ++ name ++ " = mutableStateOf<String>(" ++ initializer .string initial
        ++ ")\n") ∧
    (IsLiteral (initializer .string initial).toList ↔
      ∀ inside, initial.toList = '"' :: inside ++ ['"'] →
        ∀ unit ∈ units inside, isUnit unit = true) := by
  constructor
  · have hindent : indent 1 = "    " := by decide
    rw [Field.cell, typeName?, hindent]
    simp only [String.append_assoc]
    rfl
  · cases hquoted : isQuoted initial.toList with
    | true =>
      obtain ⟨inside, hinside⟩ := isQuoted_iff.mp hquoted
      rw [initializer_of_isQuoted hquoted, hinside, isLiteral_quoted]
      constructor
      · intro hunits inside' hsame
        obtain rfl : inside = inside' := by simpa using hsame
        exact hunits
      · intro hunits
        exact hunits inside rfl
    | false =>
      have hnone := isQuoted_eq_false_iff.mp hquoted
      rw [toList_initializer hnone]
      refine iff_of_true (isLiteral_stringLiteral initial.toList) ?_
      intro inside hinside
      exact absurd hinside (hnone inside)

/-- A text of three words, the first and the last in quotes, is written as it is.
The literal that it begins with is its first word, and the rest is read as code. -/
theorem Kotlin.quotedWords_not_literal :
    ¬IsLiteral (initializer .string "\"yes\" or \"no\"").toList ∧
    readLiteral? (initializer .string "\"yes\" or \"no\"").toList
      = some ("yes".toList, " or \"no\"".toList) := by
  constructor <;> decide

end Pagewright
