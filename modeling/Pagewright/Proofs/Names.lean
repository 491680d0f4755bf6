/-
The names of the files of pages.

Every character of a name in Pascal case is a digit or comes after the digits
(`digit_le_of_mem_pascalCase`): there is no slash and no dot among them.  So
the name of a file leads to an entry of its own (`plain_file`), it is
not one that new files are given (`temporaryName_ne_file`), and no two
pages share a file unless their names are the same in Pascal case:

* `holderFile_inj`, `viewFile_inj`, `holderFile_ne_viewFile`;
* `Page.render_eq_ok` — what the sources of a page are, and what they are called.
-/
import Pagewright.Proofs.Paths
import Pagewright.Proofs.Report
import Pagewright.Sources
import Pagewright.Storage.Disk

namespace Pagewright

/-! ### Upper case -/

namespace Text

theorem findCaseRun_spec {n : Nat} {runs : List CaseRun} {run : CaseRun}
    (h : findCaseRun n runs = some run) : run ∈ runs ∧ run.first ≤ n ∧ n ≤ run.last := by
  induction runs with
  | nil => cases h
  | cons other rest ih =>
    rw [findCaseRun] at h
    split at h
    · cases h
    · have hrest := fun h => (ih h).imp_left (List.mem_cons_of_mem other)
      split at h
      · split at h
        · obtain rfl : other = run := Option.some.inj h
          exact ⟨List.mem_cons_self, by omega, by omega⟩
        · exact hrest h
      · exact hrest h

/-- Where a run of characters ends up: in one piece of the code space, after the digits. -/
def CaseRun.Lands (run : CaseRun) : Prop :=
  0x30 ≤ run.first + run.shift ∧
    (run.last + run.shift < 0xD800 ∨
      0xDFFF < run.first + run.shift ∧ run.last + run.shift < 0x110000)

instance (run : CaseRun) : Decidable run.Lands :=
  inferInstanceAs (Decidable (_ ∧ _))

theorem uppercaseRuns_land : ∀ run ∈ uppercaseRuns, run.Lands := by
  decide +kernel

theorem uppercaseExpansions_land :
    ∀ entry ∈ uppercaseExpansions, ∀ n ∈ entry.2, 0x30 ≤ (Char.ofNat n).toNat := by
  decide +kernel

theorem toNat_ofNat_of_valid {n : Nat} (h : n.isValidChar) : (Char.ofNat n).toNat = n := by
  rw [Char.ofNat, dif_pos h]
  rfl

theorem digit_le_toUpper : ∀ n < 0x80, 0x30 ≤ n → 0x30 ≤ (Char.ofNat n).toUpper.toNat := by
  decide

/-- A digit or a letter in upper case comes no earlier than the digits. -/
theorem digit_le_upcase {c : Char} (h : 0x30 ≤ c.toNat) : ∀ u ∈ upcase c, 0x30 ≤ u.toNat := by
  intro u hu
  rw [upcase] at hu
  split at hu
  · rename_i hascii
    -- In ASCII, by trying all characters.
    obtain rfl := List.mem_singleton.mp hu
    rw [← Char.ofNat_toNat c]
    exact digit_le_toUpper c.toNat hascii h
  · split at hu
    · rename_i expansion hexpansion
      -- Some characters become several.
      obtain ⟨n, hn, rfl⟩ := List.mem_map.mp hu
      obtain ⟨before, rest, heq, -⟩ := List.lookup_eq_some_iff.mp hexpansion
      refine uppercaseExpansions_land (c.toNat, expansion) ?_ n hn
      rw [heq]
      exact List.mem_append_right before List.mem_cons_self
    · split at hu
      · rename_i run hrun
        -- The others are shifted in runs, or stay what they are.
        obtain rfl := List.mem_singleton.mp hu
        obtain ⟨hmem, hfirst, hlast⟩ := findCaseRun_spec hrun
        have hland := uppercaseRuns_land run hmem
        rw [CaseRun.Lands] at hland
        rw [toNat_ofNat_of_valid]
        · omega
        · rw [Nat.isValidChar]
          omega
      · obtain rfl := List.mem_singleton.mp hu
        exact h

end Text

/-! ### Names in Pascal case -/

namespace Kotlin

theorem digit_le_of_isAlphanumeric {c : Char} (h : Text.isAlphanumeric c = true) :
    0x30 ≤ c.toNat := by
  have hsmall : ∀ n < 0x30, Text.isAlphanumeric (Char.ofNat n) = false := by decide
  rcases Nat.lt_or_ge c.toNat 0x30 with hlt | hge
  · have hc := hsmall c.toNat hlt
    rw [Char.ofNat_toNat, h] at hc
    cases hc
  · exact hge

theorem digit_le_of_mem_joinParts :
    ∀ {name : List Char} {fresh : Bool}, ∀ c ∈ joinParts fresh name, 0x30 ≤ c.toNat
  | [], _, c, h => absurd h List.not_mem_nil
  | first :: name, fresh, c, h => by
    rw [joinParts] at h
    split at h
    · exact digit_le_of_mem_joinParts c h
    · rename_i hfirst
      have hdigit : 0x30 ≤ first.toNat :=
        digit_le_of_isAlphanumeric (by simpa using hfirst)
      split at h
      · rcases List.mem_append.mp h with h | h
        · exact Text.digit_le_upcase hdigit c h
        · exact digit_le_of_mem_joinParts c h
      · rcases List.mem_cons.mp h with rfl | h
        · exact hdigit
        · exact digit_le_of_mem_joinParts c h

/-- No character of a name in Pascal case comes before the digits. -/
theorem digit_le_of_mem_pascalCase {name : String} :
    ∀ c ∈ (pascalCase name).toList, 0x30 ≤ c.toNat := by
  rw [pascalCase]
  split
  · simp
  · rename_i first rest hparts
    have hmem := @digit_le_of_mem_joinParts name.toList true
    rw [hparts] at hmem
    rw [String.toList_ofList]
    split
    · intro c hc
      rcases List.mem_cons.mp hc with rfl | hc
      · decide
      · exact hmem c hc
    · exact hmem

theorem pascalCase_ne_nil (name : String) : (pascalCase name).toList ≠ [] := by
  rw [pascalCase]
  split
  · decide
  · rw [String.toList_ofList]
    split <;> exact List.cons_ne_nil _ _

/-- The file of the state holder of a page. -/
def holderFile (page : String) : String :=
  sourceFile (stateHolderType page)

/-- The file of the view of a page. -/
def viewFile (page : String) : String :=
  sourceFile (viewFunction page)

theorem toList_file (page suffix : String) :
    (sourceFile (pascalCase page ++ suffix)).toList
      = (pascalCase page).toList ++ (suffix.toList ++ ['.', 'k', 't']) := by
  rw [sourceFile, String.toList_append, String.toList_append, List.append_assoc]
  rfl

theorem plain_file {page suffix : String} (hs : '/' ∉ suffix.toList) :
    Path.Plain (sourceFile (pascalCase page ++ suffix)) := by
  have hlast : (sourceFile (pascalCase page ++ suffix)).toList.getLast? = some 't' := by
    rw [toList_file, ← List.append_assoc, List.getLast?_append]
    rfl
  refine ⟨⟨?_, ?_⟩, ?_, ?_⟩
  · intro hnil
    rw [hnil] at hlast
    cases hlast
  · rw [toList_file]
    intro hmem
    rcases List.mem_append.mp hmem with hmem | hmem
    · exact absurd (digit_le_of_mem_pascalCase '/' hmem) (by decide)
    · rcases List.mem_append.mp hmem with hmem | hmem
      · exact hs hmem
      · exact absurd hmem (by decide)
  · intro hhere
    rw [hhere] at hlast
    exact absurd hlast (by decide)
  · intro hup
    rw [hup] at hlast
    exact absurd hlast (by decide)

theorem plain_holderFile (page : String) : Path.Plain (holderFile page) :=
  plain_file (by decide)

theorem plain_viewFile (page : String) : Path.Plain (viewFile page) :=
  plain_file (by decide)

/-- Pages with the same state holder have the same name in Pascal case. -/
theorem stateHolderType_inj {page other : String} :
    stateHolderType page = stateHolderType other ↔ pascalCase page = pascalCase other :=
  String.append_left_inj _

theorem holderFile_inj {page other : String} :
    holderFile page = holderFile other ↔ pascalCase page = pascalCase other :=
  (String.append_left_inj _).trans (String.append_left_inj _)

theorem viewFile_inj {page other : String} :
    viewFile page = viewFile other ↔ pascalCase page = pascalCase other :=
  (String.append_left_inj _).trans (String.append_left_inj _)

/-- No state holder is in the file of a view. -/
theorem holderFile_ne_viewFile (page other : String) : holderFile page ≠ viewFile other := by
  intro h
  have htypes : stateHolderType page = viewFunction other := (String.append_left_inj _).mp h
  have hlast : (stateHolderType page).toList.getLast? = some 'r' := by
    rw [stateHolderType, String.toList_append, List.getLast?_append]
    rfl
  rw [htypes, viewFunction, String.toList_append, List.getLast?_append] at hlast
  cases hlast

end Kotlin

/-- The sources of a page are what its parts yield, under the names of its files. -/
theorem Page.render_eq_ok {page : Page} {registry : Registry} {settings : Settings}
    {sources : PageSources} (h : page.render registry settings = .ok sources) :
    page.validate settings = .ok () ∧
    page.stateHolder settings = .ok sources.stateHolder.content ∧
    page.view registry settings = .ok sources.view.content ∧
    sources.stateHolder.name = Kotlin.holderFile page.name ∧
    sources.view.name = Kotlin.viewFile page.name := by
  rw [render] at h
  obtain ⟨⟨⟩, hvalid, h⟩ := bind_eq_ok h
  obtain ⟨holder, hholder, h⟩ := bind_eq_ok h
  obtain ⟨view, hview, h⟩ := bind_eq_ok h
  obtain rfl := Except.ok.inj h
  exact ⟨hvalid, hholder, hview, rfl, rfl⟩

/-! ### Names of new files -/

namespace Disk

theorem toList_temporaryName (n : Nat) :
    (temporaryName n).toList = '.' :: 't' :: 'm' :: 'p' :: (toString (100000 + n)).toList := by
  rw [temporaryName, String.toList_append]
  rfl

theorem plain_temporaryName (n : Nat) : Path.Plain (temporaryName n) := by
  refine ⟨⟨?_, ?_⟩, ?_, ?_⟩
  · rw [toList_temporaryName]
    exact List.cons_ne_nil _ _
  · rw [toList_temporaryName]
    intro hmem
    have hdigits : '/' ∈ Nat.toDigits 10 (100000 + n) := by
      simpa using hmem
    exact absurd (Nat.isDigit_of_mem_toDigits (by decide) (by decide) hdigits) (by decide)
  · intro hhere
    have htoList := toList_temporaryName n
    rw [hhere] at htoList
    cases htoList
  · intro hup
    have htoList := toList_temporaryName n
    rw [hup] at htoList
    cases htoList

theorem temporaryName_inj {n m : Nat} (h : temporaryName n = temporaryName m) : n = m := by
  have hdigits : Nat.toDigits 10 (100000 + n) = Nat.toDigits 10 (100000 + m) := by
    simpa [toList_temporaryName] using congrArg String.toList h
  have hnumber := congrArg (Nat.ofDigitChars 10 · 0) hdigits
  rw [Nat.ofDigitChars_ten_toDigits, Nat.ofDigitChars_ten_toDigits] at hnumber
  omega

/-- A new file is not given the name of a file of a page. -/
theorem temporaryName_ne_file (n : Nat) (page suffix : String) :
    temporaryName n ≠ Kotlin.sourceFile (Kotlin.pascalCase page ++ suffix) := by
  intro h
  have hchars := congrArg String.toList h
  rw [toList_temporaryName, Kotlin.toList_file] at hchars
  cases hpascal : (Kotlin.pascalCase page).toList with
  | nil => exact Kotlin.pascalCase_ne_nil page hpascal
  | cons c rest =>
    -- The dot in front comes before the digits.
    rw [hpascal] at hchars
    have hc : '.' = c := (List.cons.inj hchars).1
    have hmem : '.' ∈ (Kotlin.pascalCase page).toList := by
      rw [hpascal, hc]
      exact List.mem_cons_self
    exact absurd (Kotlin.digit_le_of_mem_pascalCase '.' hmem) (by decide)

end Disk

end Pagewright
