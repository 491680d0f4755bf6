/-
Where the name of a page goes.

Files, classes and functions are named after a page in Pascal case.  The name
itself goes nowhere but into the banner, which is meant to be the first line of
a file.

* `Page.exists_unsigned` — under all names with the same Pascal case, the sources
  of a page are the same but for their banners;
* `PageSources.withoutFirstLines_signed_iff` — two banners leave the same texts
  behind the first line if and only if their names agree from their first line
  feed on: what stands behind a line feed in a name is not in the first line any
  more;
* `Page.render_renamed` — both, of a page under two names.
-/
import Pagewright.Proofs.Names

namespace Pagewright

/-- A banner up to the name. -/
def bannerOpening : String := "// Generated by pagegen from page `"

/-- A banner from the name on. -/
def bannerClosing : String := "`. Do not edit."

/-- The banner of a source file, which names the page. -/
def banner (name : String) : String :=
  bannerOpening ++ name ++ bannerClosing ++ "\n"

/-- A text behind its first line. -/
def withoutFirstLine (text : String) : String :=
  String.ofList (text.toList.dropWhile (· != '\n')).tail

/-- What stands in a name from its first line feed on. -/
def runOn (name : String) : List Char :=
  name.toList.dropWhile (· != '\n')

/-- Sources with the banner of a name put in front of the texts. -/
def PageSources.signed (name : String) (sources : PageSources) : PageSources :=
  ⟨⟨sources.stateHolder.name, banner name ++ sources.stateHolder.content⟩,
    ⟨sources.view.name, banner name ++ sources.view.content⟩⟩

/-- Sources whose texts are taken from the second line on. -/
def PageSources.withoutFirstLines (sources : PageSources) : PageSources :=
  ⟨⟨sources.stateHolder.name, withoutFirstLine sources.stateHolder.content⟩,
    ⟨sources.view.name, withoutFirstLine sources.view.content⟩⟩

/-! ### The first line -/

theorem runOn_eq (name : String) : runOn name = [] ∨ ∃ later, runOn name = '\n' :: later := by
  cases h : runOn name with
  | nil => exact .inl rfl
  | cons c later =>
    have hc := List.head?_dropWhile_not (· != '\n') name.toList
    rw [← runOn, h, List.head?_cons] at hc
    obtain rfl : c = '\n' := by simpa using hc
    exact .inr ⟨later, rfl⟩

theorem bannerOpening_line : ∀ c ∈ bannerOpening.toList, (c != '\n') = true :=
  List.all_eq_true.mp (by decide +kernel)

theorem bannerClosing_line : ∀ c ∈ bannerClosing.toList, (c != '\n') = true :=
  List.all_eq_true.mp (by decide +kernel)

theorem toList_banner (name rest : String) :
    (banner name ++ rest).toList
      = bannerOpening.toList ++ (name.toList ++ (bannerClosing.toList ++ '\n' :: rest.toList)) := by
  rw [banner, String.toList_append, String.toList_append, String.toList_append,
    String.toList_append, List.append_assoc, List.append_assoc, List.append_assoc]
  rfl

/-- What follows the first line of a text that begins with a banner. -/
theorem toList_withoutFirstLine (name rest : String) :
    (withoutFirstLine (banner name ++ rest)).toList
      = if (runOn name).isEmpty then rest.toList
        else (runOn name).tail ++ (bannerClosing.toList ++ '\n' :: rest.toList) := by
  rw [withoutFirstLine, String.toList_ofList, toList_banner,
    List.dropWhile_append_of_pos bannerOpening_line, List.dropWhile_append, ← runOn]
  split
  · rw [List.dropWhile_append_of_pos bannerClosing_line, List.dropWhile_cons_of_neg (by simp),
      List.tail_cons]
  · rename_i hname
    rw [List.tail_append_of_ne_nil (by simpa using hname)]

/-- The rest of a banner would be left over behind a name that runs on. -/
theorem runOn_eq_nil {name other rest : String}
    (h : withoutFirstLine (banner name ++ rest) = withoutFirstLine (banner other ++ rest))
    (hname : runOn name = []) : runOn other = [] := by
  rcases runOn_eq other with hother | ⟨later, hother⟩
  · exact hother
  · rw [← String.toList_inj, toList_withoutFirstLine, toList_withoutFirstLine, hname, hother] at h
    have hlength := congrArg List.length h
    simp only [List.isEmpty_nil, List.isEmpty_cons, if_true, if_neg Bool.false_ne_true,
      List.tail_cons, List.length_append, List.length_cons] at hlength
    omega

theorem withoutFirstLine_banner_iff (name other rest : String) :
    withoutFirstLine (banner name ++ rest) = withoutFirstLine (banner other ++ rest) ↔
      runOn name = runOn other := by
  constructor
  · intro h
    rcases runOn_eq name with hname | ⟨later, hname⟩
    · rw [hname, runOn_eq_nil h hname]
    rcases runOn_eq other with hother | ⟨later', hother⟩
    · rw [hother, runOn_eq_nil h.symm hother]
    · rw [← String.toList_inj, toList_withoutFirstLine, toList_withoutFirstLine, hname,
        hother] at h
      obtain rfl : later = later' := List.append_cancel_right h
      rw [hname, hother]
  · intro h
    rw [← String.toList_inj, toList_withoutFirstLine, toList_withoutFirstLine, h]

theorem PageSources.withoutFirstLines_signed_iff (sources : PageSources) (name other : String) :
    (sources.signed name).withoutFirstLines = (sources.signed other).withoutFirstLines ↔
      runOn name = runOn other := by
  constructor
  · intro h
    exact (withoutFirstLine_banner_iff name other sources.view.content).mp
      (congrArg (·.view.content) h)
  · intro h
    simp only [withoutFirstLines, signed]
    rw [(withoutFirstLine_banner_iff name other _).mpr h,
      (withoutFirstLine_banner_iff name other _).mpr h]

/-- Two banners leave the same behind the first lines if the names run on in
the same way, or if there is nothing to sign. -/
theorem map_signed_iff (name other : String) (sources? : Except Failure PageSources) :
    (sources?.map (·.signed name)).map PageSources.withoutFirstLines
        = (sources?.map (·.signed other)).map PageSources.withoutFirstLines ↔
      (∃ failure, sources? = .error failure) ∨ runOn name = runOn other := by
  cases sources? with
  | error failure => exact ⟨fun _ => .inl ⟨failure, rfl⟩, fun _ => rfl⟩
  | ok sources =>
    constructor
    · intro h
      exact .inr ((sources.withoutFirstLines_signed_iff name other).mp (Except.ok.inj h))
    · rintro (⟨failure, hfailure⟩ | hrun)
      · cases hfailure
      · exact congrArg Except.ok ((sources.withoutFirstLines_signed_iff name other).mpr hrun)

/-! ### Behind the banner -/

/-- The head of a file behind its banner. -/
def packageClause (package? : Option String) : String :=
  match package? with
  | some package => "\n" ++ ("package " ++ package ++ "\n\n")
  | none => "\n"

-- The texts are rearranged as arguments of `congrArg`, since a unifier that is given
-- unequal texts to compare spells them out character by character.
theorem header_none (name : String) : Kotlin.header name none = banner name ++ "\n" := by
  have hclosing : "`. Do not edit.\n\n" = bannerClosing ++ ("\n" ++ "\n") := rfl
  calc Kotlin.header name none
    _ = bannerOpening ++ name ++ "`. Do not edit.\n\n" := String.append_empty
    _ = bannerOpening ++ name ++ (bannerClosing ++ ("\n" ++ "\n")) := congrArg _ hclosing
    _ = banner name ++ "\n" := by simp only [banner, String.append_assoc]

theorem header_eq (name : String) (package? : Option String) :
    Kotlin.header name package? = banner name ++ packageClause package? := by
  cases package? with
  | none => exact header_none name
  | some package =>
    have hheader : Kotlin.header name (some package)
        = Kotlin.header name none ++ ("package " ++ package ++ "\n\n") :=
      congrArg (· ++ ("package " ++ package ++ "\n\n")) String.append_empty.symm
    rw [hheader, header_none, String.append_assoc, packageClause]

namespace Page

variable (page : Page) (registry : Registry) (settings : Settings)

theorem exists_stateHolder_eq :
    ∃ text? : Except Failure String, ∀ name,
      Kotlin.pascalCase name = Kotlin.pascalCase page.name →
      { page with name := name }.stateHolder settings = text?.map (banner name ++ ·) := by
  refine ⟨page.state.sections.map fun sections =>
    packageClause settings.package? ++ Kotlin.imports page.state.imports
      ++ "class " ++ Kotlin.stateHolderType page.name ++ " : ViewModel() \x7b\n"
      ++ "\n".intercalate sections ++ "\x7d\n", fun name hname => ?_⟩
  rw [stateHolder]
  cases page.state.sections with
  | error failure => rfl
  | ok sections =>
    simp only [header_eq, Kotlin.stateHolderType, hname, Except.map, bind, Except.bind, pure,
      Except.pure, String.append_assoc]

theorem exists_view_eq :
    ∃ text? : Except Failure String, ∀ name,
      Kotlin.pascalCase name = Kotlin.pascalCase page.name →
      { page with name := name }.view registry settings = text?.map (banner name ++ ·) := by
  refine ⟨(page.root.resolve registry (.ofRoot page.root)).map fun call =>
    packageClause settings.package? ++ Kotlin.imports (composable :: call.targets)
      ++ "@Composable\nfun " ++ Kotlin.viewFunction page.name ++ "(" ++ settings.binding ++ ": "
      ++ Kotlin.stateHolderType page.name ++ ") \x7b\n"
      ++ call.block settings.binding 1 ++ "\x7d\n", fun name hname => ?_⟩
  rw [view]
  cases page.root.resolve registry (.ofRoot page.root) with
  | error failure => rfl
  | ok call =>
    simp only [viewSource, header_eq, Kotlin.viewFunction, Kotlin.stateHolderType, hname,
      Except.map, bind, Except.bind, pure, Except.pure, String.append_assoc]

/-- Under all names with the same Pascal case, a page has the same sources but
for their banners, or fails in the same way. -/
theorem exists_unsigned :
    ∃ unsigned? : Except Failure PageSources, ∀ name,
      Kotlin.pascalCase name = Kotlin.pascalCase page.name →
      { page with name := name }.render registry settings = unsigned?.map (·.signed name) := by
  obtain ⟨holder?, hholder⟩ := page.exists_stateHolder_eq settings
  obtain ⟨view?, hview⟩ := page.exists_view_eq registry settings
  refine ⟨do
    page.validate settings
    let holder ← holder?
    let view ← view?
    return ⟨⟨Kotlin.sourceFile (Kotlin.stateHolderType page.name), holder⟩,
      ⟨Kotlin.sourceFile (Kotlin.viewFunction page.name), view⟩⟩, fun name hname => ?_⟩
  have hvalidate : { page with name := name }.validate settings = page.validate settings := rfl
  rw [render, hvalidate, hholder name hname, hview name hname, Kotlin.stateHolderType,
    Kotlin.viewFunction, hname]
  cases page.validate settings <;> cases holder? <;> cases view? <;> rfl

/-- **The name of a page gets into its sources through its Pascal case and the
banner only.**  What follows the first lines is the same under two names with
the same Pascal case exactly if the names agree from their first line feed on,
or there are no sources at all. -/
theorem render_renamed {name : String}
    (hname : Kotlin.pascalCase name = Kotlin.pascalCase page.name) :
    (∃ unsigned? : Except Failure PageSources,
      page.render registry settings = unsigned?.map (·.signed page.name) ∧
      { page with name := name }.render registry settings = unsigned?.map (·.signed name)) ∧
    ((page.render registry settings).map PageSources.withoutFirstLines
        = ({ page with name := name }.render registry settings).map
          PageSources.withoutFirstLines ↔
      (∃ failure, page.render registry settings = .error failure) ∨
        runOn page.name = runOn name) := by
  obtain ⟨unsigned?, h⟩ := page.exists_unsigned registry settings
  have hpage : page.render registry settings = unsigned?.map (·.signed page.name) := h page.name rfl
  have hother := h name hname
  refine ⟨⟨unsigned?, hpage, hother⟩, ?_⟩
  rw [hother, hpage, map_signed_iff]
  cases unsigned? <;> simp [Except.map]

end Page

/-- A page that shows a text. -/
def textPage (name : String) : Page :=
  { name := name, root := { component := "Text" } }

/-- Two spellings of a name that are the same in Pascal case make the same sources
behind their banners. -/
theorem textPage_renamed :
    Kotlin.pascalCase "shopping-list" = Kotlin.pascalCase "shopping_list" ∧
    ((textPage "shopping_list").render .compose {}).map PageSources.withoutFirstLines
      = ((textPage "shopping-list").render .compose {}).map PageSources.withoutFirstLines := by
  have hname : Kotlin.pascalCase "shopping-list" = Kotlin.pascalCase "shopping_list" := by
    decide +kernel
  have h := (textPage "shopping_list").render_renamed .compose {} hname
  exact ⟨hname, h.2.mpr (.inr (by decide +kernel))⟩

/-- A line feed in a name ends the banner too early. -/
theorem textPage_run_on :
    Kotlin.pascalCase "a\nb" = Kotlin.pascalCase "a b" ∧
    ((textPage "a\nb").render .compose {}).map PageSources.withoutFirstLines
      ≠ ((textPage "a b").render .compose {}).map PageSources.withoutFirstLines := by
  have hname : Kotlin.pascalCase "a\nb" = Kotlin.pascalCase "a b" := by decide +kernel
  have hok : ((textPage "a b").render .compose {}).isOk = true := by decide +kernel
  obtain ⟨unsigned?, h⟩ := (textPage "a b").exists_unsigned .compose {}
  have hpage : (textPage "a b").render .compose {} = unsigned?.map (·.signed "a b") := h _ rfl
  have hother : (textPage "a\nb").render .compose {} = unsigned?.map (·.signed "a\nb") := h _ hname
  refine ⟨hname, fun heq => ?_⟩
  rw [hother, hpage, map_signed_iff] at heq
  obtain ⟨failure, rfl⟩ | hrun := heq
  · rw [hpage] at hok
    cases hok
  · exact absurd hrun (by decide +kernel)

end Pagewright
