/-
The names of generated declarations as identifiers.

A name in Pascal case consists of the parts of a page name, each with its first
character in upper case.  That leaves letters and digits but for two cases: some
letters have an upper case that ends in combining marks, and a number in front is
guarded by an underscore only if it is an ASCII digit.

* `Text.capitals_upcase` — what the upper case of a letter or digit looks like;
* `joinParts_eq` — the parts of a name, joined;
* `pascalCase_isIdentifier` — when a name in Pascal case is an identifier.
-/
import Pagewright.Proofs.Names
import Pagewright.Text.Numeric

namespace Pagewright

namespace Text

variable {c : Char} {ranges : Ranges} {first last n : Nat}

/-! ### Ranges -/

-- Both are evaluated for every run of the upper case, so they compare with `Nat.ble`
-- and take no range apart.

/-- Whether one of the ranges holds all code points from one to another. -/
def Ranges.covers : Ranges → (first last : Nat) → Bool
  | [], _, _ => false
  | range :: rest, first, last =>
    range.1.ble first &&
      bif first.ble range.2 then last.ble range.2 else Ranges.covers rest first last

/-- Whether no range holds any code point from one to another. -/
def Ranges.avoids : Ranges → (first last : Nat) → Bool
  | [], _, _ => true
  | range :: rest, first, last =>
    last.blt range.1 || range.2.blt first && Ranges.avoids rest first last

theorem Ranges.contains_of_covers (h : ranges.covers first last = true) (hfirst : first ≤ n)
    (hlast : n ≤ last) : ranges.contains n = true := by
  induction ranges with
  | nil => cases h
  | cons range rest ih =>
    obtain ⟨low, high⟩ := range
    rw [covers, Bool.and_eq_true, Nat.ble_eq] at h
    obtain ⟨hlow, hrest⟩ := h
    rw [contains, if_neg (by omega)]
    cases hhigh : first.ble high with
    | true =>
      rw [hhigh, cond_true, Nat.ble_eq] at hrest
      rw [if_pos (by omega)]
    | false =>
      rw [hhigh, cond_false] at hrest
      rw [ih hrest, ite_self]

theorem Ranges.not_contains_of_avoids (h : ranges.avoids first last = true) (hfirst : first ≤ n)
    (hlast : n ≤ last) : ranges.contains n = false := by
  induction ranges with
  | nil => rfl
  | cons range rest ih =>
    obtain ⟨low, high⟩ := range
    rw [avoids, Bool.or_eq_true, Bool.and_eq_true, Nat.blt_eq, Nat.blt_eq] at h
    rw [contains]
    rcases h with hlow | ⟨hhigh, hrest⟩
    · rw [if_pos (by omega)]
    · rw [if_neg (show ¬n ≤ high by omega), ih hrest, ite_self]

/-- Letters and digits, those of ASCII among them. -/
def wordRanges : Ranges :=
  (0x30, 0x39) :: (0x41, 0x5A) :: (0x61, 0x7A) :: alphanumericRanges

theorem toNat_lt_of_isAlphanum (h : c.isAlphanum = true) : c.toNat < 0x80 := by
  delta Char.isAlphanum Char.isAlpha Char.isUpper Char.isLower Char.isDigit at h
  simp only [Bool.or_eq_true, Bool.and_eq_true, decide_eq_true_eq, ge_iff_le,
    UInt32.le_iff_toNat_le] at h
  have hval : c.toNat = c.val.toNat := rfl
  have hupper : 'Z'.val.toNat = 90 := rfl
  have hlower : 'z'.val.toNat = 122 := rfl
  have hdigit : '9'.val.toNat = 57 := rfl
  omega

theorem isAlphanumeric_eq (c : Char) : isAlphanumeric c = wordRanges.contains c.toNat := by
  have hascii : ∀ n < 0x80, isAlphanumeric (Char.ofNat n) = wordRanges.contains n := by decide
  rcases Nat.lt_or_ge c.toNat 0x80 with hlt | hge
  · have hc := hascii c.toNat hlt
    rwa [Char.ofNat_toNat] at hc
  · have hnot : c.isAlphanum = false :=
      Bool.eq_false_iff.mpr fun h => absurd (toNat_lt_of_isAlphanum h) (by omega)
    rw [isAlphanumeric, hnot, Bool.false_or, wordRanges]
    simp only [Ranges.contains]
    rw [if_neg (by omega), if_neg (by omega), if_neg (by omega), if_neg (by omega),
      if_neg (by omega), if_neg (by omega)]

/-! ### Upper case -/

/-- Marks that are put on the letter before them.  They are neither letters nor
digits, unlike the iota that becomes a letter of its own. -/
def combiningMarks : List Char :=
  ['\u0300', '\u0301', '\u0308', '\u030A', '\u030C', '\u0313', '\u0331', '\u0342']

theorem findCaseRun_mod {n : Nat} {runs : List CaseRun} {run : CaseRun}
    (h : findCaseRun n runs = some run) : (n - run.first) % run.stride = 0 := by
  induction runs with
  | nil => cases h
  | cons other rest ih =>
    rw [findCaseRun] at h
    split at h
    · cases h
    · split at h
      · split at h
        · rename_i hstride
          obtain rfl : other = run := Option.some.inj h
          exact beq_iff_eq.mp hstride
        · exact ih h
      · exact ih h

/-- A run of letters becomes letters, and a run of numbers becomes numbers.
Where every second character takes part, the others need not be letters. -/
structure CaseRun.Keeps (run : CaseRun) : Prop where
  digit : 0x39 < run.first + run.shift
  word : wordRanges.covers (run.first + run.shift).toNat (run.last + run.shift).toNat = true ∨
    ∀ k < run.last + 1 - run.first, k % run.stride = 0 →
      wordRanges.contains ((run.first + run.shift).toNat + k) = true
  numeric : numericRanges.avoids run.first run.last = true ∧
      numericRanges.avoids (run.first + run.shift).toNat (run.last + run.shift).toNat = true ∨
    numericRanges.covers run.first run.last = true ∧
      numericRanges.covers (run.first + run.shift).toNat (run.last + run.shift).toNat = true

instance (run : CaseRun) : Decidable run.Keeps :=
  decidable_of_iff (_ ∧ _ ∧ _) ⟨fun h => ⟨h.1, h.2.1, h.2.2⟩, fun h => ⟨h.1, h.2, h.3⟩⟩

theorem uppercaseRuns_keep : ∀ run ∈ uppercaseRuns, run.Keeps := by
  decide +kernel

/-- An upper case of more than one character: a letter, then letters and marks. -/
def expansionKeeps (expansion : List Nat) : Prop :=
  match expansion with
  | [] => False
  | u :: rest => u.isValidChar ∧ 0x39 < u ∧ wordRanges.covers u u = true ∧
    numericRanges.avoids u u = true ∧
    ∀ v ∈ rest, v.isValidChar ∧
      (wordRanges.covers v v = true ∨ v ∈ combiningMarks.map Char.toNat)

instance : DecidablePred expansionKeeps
  | [] => inferInstanceAs (Decidable False)
  | _ :: _ => inferInstanceAs (Decidable (_ ∧ _))

theorem uppercaseExpansions_keep : ∀ entry ∈ uppercaseExpansions,
    0x39 < entry.1 ∧ numericRanges.avoids entry.1 entry.1 = true ∧ expansionKeeps entry.2 := by
  decide +kernel

theorem toUpper_keeps : ∀ n < 0x80, isAlphanumeric (Char.ofNat n) = true →
    isAlphanumeric (Char.ofNat n).toUpper = true ∧
    isNumeric (Char.ofNat n).toUpper = isNumeric (Char.ofNat n) ∧
    (Char.ofNat n).toUpper.isDigit = (Char.ofNat n).isDigit := by
  decide

theorem isDigit_eq_false (h : 0x39 < c.toNat) : c.isDigit = false := by
  rw [Bool.eq_false_iff]
  intro hdigit
  simp only [Char.isDigit, Bool.and_eq_true, decide_eq_true_eq, ge_iff_le,
    UInt32.le_iff_toNat_le] at hdigit
  have hval : c.toNat = c.val.toNat := rfl
  have hnine : '9'.val.toNat = 57 := rfl
  omega

theorem isAlphanumeric_ofNat (h : n.isValidChar) :
    isAlphanumeric (Char.ofNat n) = wordRanges.contains n := by
  rw [isAlphanumeric_eq, toNat_ofNat_of_valid h]

theorem isNumeric_ofNat (h : n.isValidChar) :
    isNumeric (Char.ofNat n) = numericRanges.contains n := by
  rw [isNumeric, toNat_ofNat_of_valid h]

/-- The upper case of a character in a run is one character of the same kind. -/
theorem CaseRun.Keeps.image {run : CaseRun} (h : run.Keeps) (hland : run.Lands)
    (hfirst : run.first ≤ n) (hlast : n ≤ run.last) (hmod : (n - run.first) % run.stride = 0) :
    (n + run.shift).toNat.isValidChar ∧ 0x39 < (n + run.shift).toNat ∧
      wordRanges.contains (n + run.shift).toNat = true ∧
      numericRanges.contains (n + run.shift).toNat = numericRanges.contains n := by
  have hdigit := h.digit
  rw [Lands] at hland
  refine ⟨?_, by omega, ?_, ?_⟩
  · rw [Nat.isValidChar]
    omega
  · rcases h.word with hcovers | hall
    · exact Ranges.contains_of_covers hcovers (by omega) (by omega)
    · have himage : (n + run.shift).toNat = (run.first + run.shift).toNat + (n - run.first) := by
        omega
      rw [himage]
      exact hall _ (by omega) hmod
  · rcases h.numeric with ⟨hn, hu⟩ | ⟨hn, hu⟩
    · rw [Ranges.not_contains_of_avoids hn hfirst hlast,
        Ranges.not_contains_of_avoids hu (by omega) (by omega)]
    · rw [Ranges.contains_of_covers hn hfirst hlast,
        Ranges.contains_of_covers hu (by omega) (by omega)]

/-- What the upper case of a letter or digit looks like: a letter or digit, a number
only of a number, and then letters and marks. -/
structure Capitals (c : Char) (capitals : List Char) : Prop where
  word : ∀ u ∈ capitals, isAlphanumeric u = true ∨ u ∈ combiningMarks
  first : ∃ u rest, capitals = u :: rest ∧ isAlphanumeric u = true ∧
    isNumeric u = isNumeric c ∧ u.isDigit = c.isDigit

theorem Capitals.singleton {u : Char} (hword : isAlphanumeric u = true)
    (hnumeric : isNumeric u = isNumeric c) (hdigit : u.isDigit = c.isDigit) :
    Capitals c [u] :=
  ⟨fun _ hv => .inl (List.mem_singleton.mp hv ▸ hword), u, [], rfl, hword, hnumeric, hdigit⟩

theorem Capitals.of_expansion {expansion : List Nat} (hc : 0x39 < c.toNat)
    (hnumeric : numericRanges.avoids c.toNat c.toNat = true) (h : expansionKeeps expansion) :
    Capitals c (expansion.map Char.ofNat) := by
  cases expansion with
  | nil => exact h.elim
  | cons u rest =>
    obtain ⟨hvalid, hdigit, hword, hnot, hrest⟩ := h
    have hcovered {v : Nat} (hv : v.isValidChar) (h : wordRanges.covers v v = true) :
        isAlphanumeric (Char.ofNat v) = true := by
      rw [isAlphanumeric_ofNat hv, Ranges.contains_of_covers h (Nat.le_refl _) (Nat.le_refl _)]
    have hu := hcovered hvalid hword
    constructor
    case word =>
      rw [List.map_cons, List.forall_mem_cons, List.forall_mem_map]
      refine ⟨.inl hu, fun v hv => ?_⟩
      obtain ⟨hvalid', hword' | hmark⟩ := hrest v hv
      · exact .inl (hcovered hvalid' hword')
      · obtain ⟨mark, hmem, rfl⟩ := List.mem_map.mp hmark
        exact .inr (by rwa [Char.ofNat_toNat])
    case first =>
      refine ⟨Char.ofNat u, rest.map Char.ofNat, rfl, hu, ?_, ?_⟩
      · have hu := Ranges.not_contains_of_avoids hnot (Nat.le_refl _) (Nat.le_refl _)
        have hc := Ranges.not_contains_of_avoids hnumeric (Nat.le_refl _) (Nat.le_refl _)
        rw [isNumeric_ofNat hvalid, hu, isNumeric, hc]
      · rw [isDigit_eq_false hc, isDigit_eq_false (by rwa [toNat_ofNat_of_valid hvalid])]

theorem capitals_upcase (h : isAlphanumeric c = true) : Capitals c (upcase c) := by
  rw [upcase]
  split
  · rename_i hascii
    have hkeeps := toUpper_keeps c.toNat hascii
    rw [Char.ofNat_toNat] at hkeeps
    obtain ⟨hword, hnumeric, hdigit⟩ := hkeeps h
    exact .singleton hword hnumeric hdigit
  · rename_i hbeyond
    split
    · rename_i expansion hexpansion
      obtain ⟨before, rest, heq, -⟩ := List.lookup_eq_some_iff.mp hexpansion
      have hmem : (c.toNat, expansion) ∈ uppercaseExpansions := by
        rw [heq]
        exact List.mem_append_right before List.mem_cons_self
      obtain ⟨hc, hnumeric, hkeeps⟩ := uppercaseExpansions_keep _ hmem
      exact .of_expansion hc hnumeric hkeeps
    · split
      · rename_i run hrun
        obtain ⟨hmem, hfirst, hlast⟩ := findCaseRun_spec hrun
        obtain ⟨hvalid, hdigit, hword, hnumeric⟩ :=
          (uppercaseRuns_keep run hmem).image (uppercaseRuns_land run hmem) hfirst hlast
            (findCaseRun_mod hrun)
        refine .singleton ?_ ?_ ?_
        · rw [isAlphanumeric_ofNat hvalid, hword]
        · rw [isNumeric_ofNat hvalid, hnumeric, isNumeric]
        · rw [isDigit_eq_false (by rwa [toNat_ofNat_of_valid hvalid]),
            isDigit_eq_false (by omega)]
      · exact .singleton h rfl rfl

end Text

namespace Kotlin

/-! ### Parts -/

/-- The parts of a name: its longest runs of letters and digits. -/
def nameParts (name : List Char) : List (List Char) :=
  (name.splitOnP (!Text.isAlphanumeric ·)).filter (!·.isEmpty)

/-- A part with its first character in upper case. -/
def capitalize : List Char → List Char
  | [] => []
  | c :: part => Text.upcase c ++ part

/-- The pieces of a name between its separators, joined:  the first of them is
capitalized only if it is the beginning of a part. -/
theorem joinParts_eq_splitOnP (name : List Char) :
    ∃ first rest, name.splitOnP (!Text.isAlphanumeric ·) = first :: rest ∧
      joinParts true name = capitalize first ++ rest.flatMap capitalize ∧
      joinParts false name = first ++ rest.flatMap capitalize := by
  induction name with
  | nil => exact ⟨[], [], rfl, rfl, rfl⟩
  | cons c name ih =>
    obtain ⟨first, rest, hsplit, htrue, hfalse⟩ := ih
    rw [List.splitOnP_cons_eq_if_modifyHead, joinParts, joinParts, hsplit]
    split
    · exact ⟨[], first :: rest, rfl, htrue, htrue⟩
    · refine ⟨c :: first, rest, rfl, ?_, ?_⟩
      · rw [if_pos rfl, hfalse, capitalize, List.append_assoc]
      · rw [if_neg Bool.false_ne_true, hfalse, List.cons_append]

theorem flatMap_capitalize_filter (pieces : List (List Char)) :
    (pieces.filter (!·.isEmpty)).flatMap capitalize = pieces.flatMap capitalize := by
  induction pieces with
  | nil => rfl
  | cons piece pieces ih =>
    cases piece with
    | nil => exact ih
    | cons c piece =>
      rw [List.filter_cons_of_pos (by rfl), List.flatMap_cons, List.flatMap_cons, ih]

/-- The parts of a name, each with its first character in upper case, are joined. -/
theorem joinParts_eq (name : List Char) :
    joinParts true name = (nameParts name).flatMap capitalize := by
  obtain ⟨first, rest, hsplit, htrue, -⟩ := joinParts_eq_splitOnP name
  rw [htrue, nameParts, hsplit, flatMap_capitalize_filter, List.flatMap_cons]

theorem isAlphanumeric_of_mem_splitOnP : ∀ {name piece : List Char},
    piece ∈ name.splitOnP (!Text.isAlphanumeric ·) → ∀ c ∈ piece, Text.isAlphanumeric c = true
  | [], piece, h => by
    rw [List.splitOnP_nil] at h
    simp [List.mem_singleton.mp h]
  | c :: name, piece, h => by
    obtain ⟨first, rest, hsplit⟩ := List.exists_cons_of_ne_nil
      (List.splitOnP_ne_nil (!Text.isAlphanumeric ·) name)
    have ih := fun piece (h : piece ∈ first :: rest) =>
      isAlphanumeric_of_mem_splitOnP (hsplit ▸ h)
    rw [List.splitOnP_cons_eq_if_modifyHead, hsplit] at h
    split at h
    · rcases List.mem_cons.mp h with rfl | h
      · simp
      · exact ih piece h
    · rename_i hc
      rcases List.mem_cons.mp h with rfl | h
      · rw [List.forall_mem_cons]
        exact ⟨by simpa using hc, ih first List.mem_cons_self⟩
      · exact ih piece (List.mem_cons_of_mem _ h)

/-- A part is not empty and consists of letters and digits. -/
theorem exists_of_mem_nameParts {name part : List Char} (h : part ∈ nameParts name) :
    ∃ c rest, part = c :: rest ∧ Text.isAlphanumeric c = true ∧
      ∀ d ∈ rest, Text.isAlphanumeric d = true := by
  obtain ⟨hsplit, hne⟩ := List.mem_filter.mp h
  obtain ⟨c, rest, rfl⟩ := List.exists_cons_of_ne_nil (l := part) (by simpa using hne)
  have hword := isAlphanumeric_of_mem_splitOnP hsplit
  rw [List.forall_mem_cons] at hword
  exact ⟨c, rest, rfl, hword⟩

/-! ### Identifiers -/

/-- A name that a declaration may have: letters, digits and underscores, and no
number of any script in front. -/
structure IsIdentifier (name : String) : Prop where
  nonempty : name ≠ ""
  word : ∀ c ∈ name.toList, Text.isWordCharacter c = true
  start : ∀ c ∈ name.toList.head?, Text.isNumeric c = false

/-- More letters at the end do not change whether a name is an identifier. -/
theorem isIdentifier_append {name suffix : String} (hname : name ≠ "")
    (hsuffix : ∀ c ∈ suffix.toList, Text.isWordCharacter c = true) :
    IsIdentifier (name ++ suffix) ↔ IsIdentifier name := by
  have hhead : (name ++ suffix).toList.head? = name.toList.head? := by
    rw [String.toList_append, List.head?_append_of_ne_nil _ (by simpa using hname)]
  constructor
  · intro h
    refine ⟨hname, fun c hc => h.word c ?_, hhead ▸ h.start⟩
    rw [String.toList_append]
    exact List.mem_append_left _ hc
  · intro h
    refine ⟨by simp [hname], ?_, hhead ▸ h.start⟩
    rw [String.toList_append, List.forall_mem_append]
    exact ⟨h.word, hsuffix⟩

theorem not_isWordCharacter_of_mark {c : Char} (h : c ∈ Text.combiningMarks) :
    Text.isWordCharacter c = false := by
  have hall : Text.combiningMarks.all (!Text.isWordCharacter ·) = true := by decide
  simpa using List.all_eq_true.mp hall c h

/-- Joined parts hold letters, digits, and the marks that come with capitals. -/
theorem mem_joinParts {name : List Char} {c : Char} (h : c ∈ joinParts true name) :
    Text.isAlphanumeric c = true ∨
      c ∈ Text.combiningMarks ∧
        ∃ part ∈ nameParts name, ∃ d ∈ part.head?, c ∈ Text.upcase d := by
  rw [joinParts_eq, List.mem_flatMap] at h
  obtain ⟨part, hpart, hc⟩ := h
  obtain ⟨d, rest, rfl, hd, hrest⟩ := exists_of_mem_nameParts hpart
  rcases List.mem_append.mp hc with hc | hc
  · rcases (Text.capitals_upcase hd).word c hc with hword | hmark
    · exact .inl hword
    · exact .inr ⟨hmark, _, hpart, d, rfl, hc⟩
  · exact .inl (hrest c hc)

/-- Joined parts begin as the first part does. -/
theorem exists_joinParts_eq_cons {name part : List Char} {c : Char} {parts : List (List Char)}
    (h : nameParts name = (c :: part) :: parts) :
    ∃ u rest, joinParts true name = u :: rest ∧ Text.isAlphanumeric u = true ∧
      Text.isNumeric u = Text.isNumeric c ∧ u.isDigit = c.isDigit := by
  obtain ⟨d, _, heq, hd, -⟩ := exists_of_mem_nameParts (h ▸ List.mem_cons_self)
  obtain rfl : c = d := (List.cons.inj heq).1
  obtain ⟨u, marks, hupcase, hkind⟩ := (Text.capitals_upcase hd).first
  rw [joinParts_eq, h, List.flatMap_cons, capitalize, hupcase]
  exact ⟨u, _, rfl, hkind⟩

/-- A name in Pascal case is that of a page without parts, or joined parts behind
an underscore if they begin with an ASCII digit. -/
theorem pascalCase_cases (name : String) :
    nameParts name.toList = [] ∧ pascalCase name = "Page" ∨
    ∃ c part parts u rest, nameParts name.toList = (c :: part) :: parts ∧
      joinParts true name.toList = u :: rest ∧ Text.isAlphanumeric u = true ∧
      Text.isNumeric u = Text.isNumeric c ∧
      (pascalCase name).toList = if c.isDigit then '_' :: u :: rest else u :: rest := by
  cases hparts : nameParts name.toList with
  | nil =>
    have hjoin : joinParts true name.toList = [] := by rw [joinParts_eq, hparts]; rfl
    exact .inl ⟨rfl, by rw [pascalCase, hjoin]⟩
  | cons part parts =>
    obtain ⟨c, part, rfl, -, -⟩ := exists_of_mem_nameParts (hparts ▸ List.mem_cons_self)
    obtain ⟨u, rest, hjoin, hword, hnumeric, hdigit⟩ := exists_joinParts_eq_cons hparts
    refine .inr ⟨c, part, parts, u, rest, rfl, hjoin, hword, hnumeric, ?_⟩
    rw [pascalCase, hjoin, ← hdigit]
    exact String.toList_ofList

theorem mem_pascalCase {name : String} {c : Char} (h : c ∈ (pascalCase name).toList) :
    Text.isWordCharacter c = true ∨
      c ∈ Text.combiningMarks ∧
        ∃ part ∈ nameParts name.toList, ∃ d ∈ part.head?, c ∈ Text.upcase d := by
  rcases pascalCase_cases name with ⟨-, hpage⟩ | ⟨_, _, _, u, rest, -, hjoin, -, -, htext⟩
  · have hword : "Page".toList.all Text.isWordCharacter = true := by decide
    rw [hpage] at h
    exact .inl (List.all_eq_true.mp hword c h)
  · -- It is the underscore in front, or comes from a part.
    have hmem : c = '_' ∨ c ∈ joinParts true name.toList := by
      rw [htext] at h
      rw [hjoin]
      split at h
      · exact List.mem_cons.mp h
      · exact .inr h
    rcases hmem with rfl | hmem
    · exact .inl (by decide)
    · rcases mem_joinParts hmem with hword | hmark
      · exact .inl (by rw [Text.isWordCharacter, hword, Bool.true_or])
      · exact .inr hmark

theorem mem_pascalCase_of_mem_upcase {name : String} {part : List Char} {c u : Char}
    (hpart : part ∈ nameParts name.toList) (hc : c ∈ part.head?) (hu : u ∈ Text.upcase c) :
    u ∈ (pascalCase name).toList := by
  have hmem : u ∈ joinParts true name.toList := by
    obtain ⟨rest, rfl⟩ := List.head?_eq_some_iff.mp hc
    rw [joinParts_eq]
    exact List.mem_flatMap.mpr ⟨_, hpart, List.mem_append_left _ hu⟩
  rcases pascalCase_cases name with ⟨hnone, -⟩ | ⟨_, _, _, _, _, -, hjoin, -, -, htext⟩
  · rw [hnone] at hpart
    cases hpart
  · rw [htext]
    rw [hjoin] at hmem
    split
    · exact List.mem_cons_of_mem _ hmem
    · exact hmem

theorem word_pascalCase_iff (name : String) :
    (∀ c ∈ (pascalCase name).toList, Text.isWordCharacter c = true) ↔
      ∀ part ∈ nameParts name.toList, ∀ c ∈ part.head?, ∀ u ∈ Text.upcase c,
        u ∉ Text.combiningMarks := by
  constructor
  · intro h part hpart c hc u hu hmark
    have hword := h u (mem_pascalCase_of_mem_upcase hpart hc hu)
    rw [not_isWordCharacter_of_mark hmark] at hword
    cases hword
  · intro h c hc
    rcases mem_pascalCase hc with hword | ⟨hmark, part, hpart, d, hd, hup⟩
    · exact hword
    · exact absurd hmark (h part hpart d hd c hup)

theorem start_pascalCase_iff (name : String) :
    (∀ c ∈ (pascalCase name).toList.head?, Text.isNumeric c = false) ↔
      ∀ part ∈ (nameParts name.toList).head?, ∀ c ∈ part.head?,
        Text.isNumeric c = true → c.isDigit = true := by
  rcases pascalCase_cases name with ⟨hnone, hpage⟩ | ⟨c, _, _, u, _, hparts, -, -, hkind, htext⟩
  · have hhead : "Page".toList.head? = some 'P' := by decide
    have hletter : Text.isNumeric 'P' = false := by decide
    rw [hnone, hpage, hhead]
    simp [hletter]
  · have hunder : Text.isNumeric '_' = false := by decide
    rw [hparts, htext]
    cases hdigit : c.isDigit <;> simp [hunder, hkind, hdigit]

theorem pascalCase_ne_empty (name : String) : pascalCase name ≠ "" := by
  simpa using pascalCase_ne_nil name

/-- **When a name in Pascal case is an identifier.**  It is never empty, and its
characters are letters, digits, underscores, or marks that come with a capital.
It can be declared, and so can the state holder and the view that are named after
it, exactly if no part of the page name begins with a letter whose capital has
such a mark, and the first of them begins with no number but an ASCII digit. -/
theorem pascalCase_isIdentifier (name : String) :
    pascalCase name ≠ "" ∧
    (∀ c ∈ (pascalCase name).toList,
      Text.isWordCharacter c = true ∨ c ∈ Text.combiningMarks) ∧
    (IsIdentifier (pascalCase name) ↔
      (∀ part ∈ nameParts name.toList, ∀ c ∈ part.head?, ∀ u ∈ Text.upcase c,
        u ∉ Text.combiningMarks) ∧
      ∀ part ∈ (nameParts name.toList).head?, ∀ c ∈ part.head?,
        Text.isNumeric c = true → c.isDigit = true) ∧
    (IsIdentifier (stateHolderType name) ↔ IsIdentifier (pascalCase name)) ∧
    (IsIdentifier (viewFunction name) ↔ IsIdentifier (pascalCase name)) := by
  have hsuffix {suffix : String} (h : suffix.toList.all Text.isWordCharacter = true) :
      IsIdentifier (pascalCase name ++ suffix) ↔ IsIdentifier (pascalCase name) :=
    isIdentifier_append (pascalCase_ne_empty name) (List.all_eq_true.mp h)
  refine ⟨pascalCase_ne_empty name, fun c hc => (mem_pascalCase hc).imp_right And.left, ?_,
    hsuffix (by decide), hsuffix (by decide)⟩
  constructor
  · intro h
    exact ⟨(word_pascalCase_iff name).mp h.word, (start_pascalCase_iff name).mp h.start⟩
  · intro h
    exact ⟨pascalCase_ne_empty name, (word_pascalCase_iff name).mpr h.1,
      (start_pascalCase_iff name).mpr h.2⟩

/-- A digit of another script stays in front, and the capital of a letter may be
two characters, of which the second is a mark. -/
theorem pascalCase_foreign :
    pascalCase "2fa" = "_2fa" ∧ IsIdentifier (pascalCase "2fa") ∧
    pascalCase "٣d" = "٣d" ∧ ¬IsIdentifier (pascalCase "٣d") ∧
    pascalCase "ǰa" = "J\u030Ca" ∧ ¬IsIdentifier (pascalCase "ǰa") := by
  have hascii : pascalCase "2fa" = "_2fa" := by decide +kernel
  have hdigit : pascalCase "٣d" = "٣d" := by decide +kernel
  have hmark : pascalCase "ǰa" = "J\u030Ca" := by decide +kernel
  refine ⟨hascii, ?_, hdigit, fun h => ?_, hmark, fun h => ?_⟩
  · have hword : "_2fa".toList.all Text.isWordCharacter = true := by decide
    rw [hascii]
    refine ⟨by decide, List.all_eq_true.mp hword, fun c hc => ?_⟩
    obtain rfl : '_' = c := Option.some.inj hc
    decide
  · have hstart := h.start '٣' (by rw [hdigit]; decide)
    exact absurd hstart (by decide)
  · have hword := h.word '\u030C' (by rw [hmark]; decide)
    exact absurd hword (by decide)

end Kotlin

end Pagewright
