/-
The layout of a state holder.

The source text of a state holder is taken line by line.  Behind the line that
opens its class, the members of the class start in the fifth column, and nothing
else does, whatever the bodies of its methods hold: a body line is empty or
starts further in.

* `Page.stateHolder_error_iff` — the first field of a kind without a type is
  reported;
* `Page.exists_stateHolder_lines` — the lines of a state holder: its head, the
  line that opens the class, and the lines of the class;
* `filter_classLines` — those lines of a class that start in the fifth column;
* `Page.stateHolder_layout` — all of this, for pages whose names are in one line.
-/
import Pagewright.Proofs.PageName
import Pagewright.Proofs.Report

namespace Pagewright

/-! ### Lines -/

/-- The lines of a source text: what stands between its line feeds. -/
def sourceLines (source : String) : List String :=
  (source.toList.splitOn '\n').map String.ofList

/-- The text of some lines, each of which ends with a line feed. -/
def ofLines (lines : List String) : String :=
  String.join (lines.map (· ++ "\n"))

theorem ofLines_append (lines lines' : List String) :
    ofLines (lines ++ lines') = ofLines lines ++ ofLines lines' := by
  rw [ofLines, List.map_append, String.join_append]
  rfl

theorem ofLines_cons (line : String) (lines : List String) :
    ofLines (line :: lines) = line ++ "\n" ++ ofLines lines := by
  rw [ofLines, List.map_cons, String.join_cons]
  rfl

theorem sourceLines_ofLines_append {lines : List String} (h : ∀ line ∈ lines, '\n' ∉ line.toList)
    (rest : String) : sourceLines (ofLines lines ++ rest) = lines ++ sourceLines rest := by
  induction lines with
  | nil => rw [ofLines, List.map_nil, String.join_nil, String.empty_append, List.nil_append]
  | cons line lines ih =>
    obtain ⟨hline, hlines⟩ := List.forall_mem_cons.mp h
    have htoList : (ofLines (line :: lines) ++ rest).toList
        = line.toList ++ '\n' :: (ofLines lines ++ rest).toList := by
      simp [ofLines_cons]
    rw [sourceLines, htoList, List.splitOn_append_cons_self_of_not_mem hline, List.map_cons,
      String.ofList_toList, ← sourceLines, ih hlines, List.cons_append]

/-- The lines that a text is made of, and the empty one behind its last line
feed. -/
theorem sourceLines_ofLines {lines : List String} (h : ∀ line ∈ lines, '\n' ∉ line.toList) :
    sourceLines (ofLines lines) = lines ++ [""] := by
  rw [← String.append_empty (s := ofLines lines), sourceLines_ofLines_append h]
  rfl

/-- Texts with a line feed between them, as lines with an empty line between
them. -/
theorem intercalate_ofLines (sections : List (List String)) :
    "\n".intercalate (sections.map ofLines) = ofLines ([""].intercalate sections) := by
  induction sections with
  | nil => rfl
  | cons first rest ih =>
    cases rest with
    | nil => simp
    | cons second rest =>
      rw [List.map_cons, List.map_cons, String.intercalate_cons_cons, ← List.map_cons, ih,
        List.intercalate_cons_cons, ofLines_append, ofLines_append]
      rfl

theorem mem_of_mem_dropReturn {c : Char} {line : List Char} (h : c ∈ Text.dropReturn line) :
    c ∈ line := by
  unfold Text.dropReturn at h
  split at h
  · exact List.mem_cons_of_mem _ h
  · exact h

theorem linesFrom_line : ∀ {begun text : List Char}, '\n' ∉ begun →
    ∀ line ∈ Text.linesFrom begun text, '\n' ∉ line
  | begun, [], hbegun, line, hmem => by
    rw [Text.linesFrom] at hmem
    split at hmem
    · cases hmem
    · obtain rfl := List.mem_singleton.mp hmem
      simpa using hbegun
  | begun, c :: text, hbegun, line, hmem => by
    rw [Text.linesFrom] at hmem
    split at hmem
    · rcases List.mem_cons.mp hmem with rfl | hmem
      · rw [List.mem_reverse]
        exact mt mem_of_mem_dropReturn hbegun
      · exact linesFrom_line (List.not_mem_nil) line hmem
    · rename_i hc
      exact linesFrom_line (by simpa [Ne.symm hc] using hbegun) line hmem

/-! ### Members -/

/-- Whether a line starts in the fifth column: four blanks, and something that is
no blank. -/
def isMemberLine (line : String) : Bool :=
  line.toList.take 4 = [' ', ' ', ' ', ' '] && line.toList[4]?.any (· != ' ')

/-- A line declares the cell of a field. -/
def Field.IsCellLine (field : Field) (line : String) : Prop :=
  ∃ type, Kotlin.typeName? field.kind = some type ∧
    line = "    val " ++ field.name ++ " = mutableStateOf<" ++ type ++ ">("
      ++ Kotlin.initializer field.kind field.initial ++ ")"

/-- The line that opens the function of a method. -/
def Method.openingLine (method : Method) : String :=
  "    fun " ++ method.name ++ "() \x7b"

/-- The line that closes the function of a method. -/
def closingLine : String := "    \x7d"

/-- How a line of a method body is written: as an empty line if it is all white
space, and otherwise behind eight blanks and without the white space at its
end. -/
def writtenLine (line : List Char) : String :=
  if line.all Text.isWhiteSpace then "" else "        " ++ String.ofList (Text.trimEnd line)

/-- The lines of the function of a method. -/
def Method.functionLines (method : Method) : List String :=
  method.openingLine :: (Text.lines (dropSelfScope method.body).toList).map writtenLine
    ++ [closingLine]

/-- The lines of a class with an empty line between its sections: the cells, if
there are any, and the function of each method. -/
def classLines (cells : List String) (methods : List Method) : List String :=
  [""].intercalate ((if cells = [] then [] else [cells]) ++ methods.map Method.functionLines)

theorem indent_one : Kotlin.indent 1 = "    " := by decide

theorem indent_two : Kotlin.indent 2 = "        " := by decide

theorem Field.cell_eq_ok {field : Field} {text : String} (h : field.cell = .ok text) :
    ∃ line, field.IsCellLine line ∧ text = line ++ "\n" := by
  rw [cell] at h
  split at h
  · next type htype =>
    obtain rfl := Except.ok.inj h
    exact ⟨_, ⟨type, htype, rfl⟩, by rw [indent_one]; simp [String.append_assoc]⟩
  · cases h

theorem exists_cellLines {fields : List Field} {texts : List String}
    (h : List.Forall₂ (fun field text => field.cell = .ok text) fields texts) :
    ∃ cells, List.Forall₂ Field.IsCellLine fields cells ∧ texts = cells.map (· ++ "\n") := by
  induction h with
  | nil => exact ⟨[], .nil, rfl⟩
  | cons htext _ ih =>
    obtain ⟨line, hline, rfl⟩ := Field.cell_eq_ok htext
    obtain ⟨cells, hcells, rfl⟩ := ih
    exact ⟨line :: cells, .cons hline hcells, rfl⟩

theorem exists_field_of_cellLine {fields : List Field} {cells : List String} {cell : String}
    (h : List.Forall₂ Field.IsCellLine fields cells) (hmem : cell ∈ cells) :
    ∃ field ∈ fields, field.IsCellLine cell :=
  exists_of_forall₂ (List.Forall₂.flip (R := flip Field.IsCellLine) h) hmem

theorem bodyLine_eq (line : List Char) : bodyLine line = writtenLine line ++ "\n" := by
  rw [bodyLine, writtenLine, Text.isBlank, indent_two]
  split <;> rfl

theorem Method.function_eq (method : Method) : method.function = ofLines method.functionLines := by
  have hbody (lines : List (List Char)) :
      String.join (lines.map bodyLine) = ofLines (lines.map writtenLine) := by
    rw [ofLines, List.map_map]
    exact congrArg String.join (List.map_congr_left fun line _ => bodyLine_eq line)
  rw [function, functionLines, ofLines_append, ofLines_cons, hbody, indent_one]
  simp [openingLine, closingLine, ofLines, String.append_assoc]

/-- The text of a class is that of its lines. -/
theorem PageState.sections_eq_ok {state : PageState} {sections : List String}
    (h : state.sections = .ok sections) :
    ∃ cells, List.Forall₂ Field.IsCellLine state.fields cells ∧
      "\n".intercalate sections = ofLines (classLines cells state.methods) := by
  rw [PageState.sections] at h
  obtain ⟨texts, htexts, h⟩ := bind_eq_ok h
  obtain ⟨cells, hcells, rfl⟩ := exists_cellLines (forall₂_of_mapM_ok htexts)
  refine ⟨cells, hcells, ?_⟩
  obtain rfl := Except.ok.inj h
  have hfields : (if (cells.map (· ++ "\n")).isEmpty then []
      else [String.join (cells.map (· ++ "\n"))])
        = (if cells = [] then [] else [cells]).map ofLines := by
    cases cells <;> rfl
  have hmethods : Method.function = ofLines ∘ Method.functionLines := by
    funext method
    rw [Method.function_eq, Function.comp_apply]
  rw [classLines, ← intercalate_ofLines, List.map_append, List.map_map, hfields, hmethods]

/-! ### The head of the source text -/

/-- Whether a line opens a class. -/
def opensClass (line : String) : Bool :=
  "class ".toList.isPrefixOf line.toList

/-- The line that opens the class of a page. -/
def Page.classLine (page : Page) : String :=
  "class " ++ Kotlin.stateHolderType page.name ++ " : ViewModel() \x7b"

/-- A text consists of lines none of which opens a class. -/
def IsHead (text : String) : Prop :=
  ∃ lines, text = ofLines lines ∧
    ∀ line ∈ lines, '\n' ∉ line.toList ∧ opensClass line = false

theorem IsHead.append {text text' : String} (h : IsHead text) (h' : IsHead text') :
    IsHead (text ++ text') := by
  obtain ⟨lines, rfl, hlines⟩ := h
  obtain ⟨lines', rfl, hlines'⟩ := h'
  exact ⟨lines ++ lines', (ofLines_append lines lines').symm,
    List.forall_mem_append.mpr ⟨hlines, hlines'⟩⟩

theorem opensClass_append {opening : String} {c : Char} (h : opening.toList.head? = some c)
    (hc : c ≠ 'c') (rest : String) : opensClass (opening ++ rest) = false := by
  obtain ⟨later, hlater⟩ := List.head?_eq_some_iff.mp h
  have hclass : "class ".toList = 'c' :: "lass ".toList := rfl
  rw [opensClass, String.toList_append, hlater, hclass, List.cons_append, List.isPrefixOf]
  simp [Ne.symm hc]

theorem isHead_banner {name : String} (hname : '\n' ∉ name.toList) : IsHead (banner name) := by
  refine ⟨[bannerOpening ++ name ++ bannerClosing], by simp [ofLines, banner], ?_⟩
  rw [List.forall_mem_singleton]
  constructor
  · simp only [String.toList_append, List.mem_append, not_or]
    exact ⟨⟨fun h => absurd (bannerOpening_line _ h) (by decide), hname⟩,
      fun h => absurd (bannerClosing_line _ h) (by decide)⟩
  · rw [String.append_assoc]
    exact opensClass_append rfl (by decide) _

theorem isHead_packageClause {package? : Option String}
    (h : ∀ package ∈ package?, '\n' ∉ package.toList) : IsHead (packageClause package?) := by
  cases package? with
  | none => exact ⟨[""], rfl, by decide⟩
  | some package =>
    refine ⟨["", "package " ++ package, ""], by simp [ofLines, packageClause, String.append_assoc], ?_⟩
    have hline : '\n' ∉ ("package " ++ package).toList := by
      rw [String.toList_append, List.mem_append, not_or]
      exact ⟨by decide, h package rfl⟩
    have hclass : opensClass ("package " ++ package) = false :=
      opensClass_append rfl (by decide) _
    simp only [List.forall_mem_cons]
    exact ⟨by decide, ⟨hline, hclass⟩, by decide, by simp⟩

theorem isHead_imports (state : PageState) : IsHead (Kotlin.imports state.imports) := by
  rw [PageState.imports]
  cases state.fields.isEmpty with
  | true =>
    exact ⟨["import " ++ viewModelClass, ""], by decide +kernel, by decide +kernel⟩
  | false =>
    exact ⟨["import " ++ mutableStateOf, "import " ++ viewModelClass, ""], by decide +kernel,
      by decide +kernel⟩

/-! ### The lines of the source text -/

/-- What a state holder takes from a page and the settings holds no line feed,
apart from the bodies of methods. -/
structure Page.OneLined (page : Page) (settings : Settings) : Prop where
  name : '\n' ∉ page.name.toList
  package : ∀ package ∈ settings.package?, '\n' ∉ package.toList
  fields : ∀ field ∈ page.state.fields, '\n' ∉ field.name.toList ∧
    '\n' ∉ (Kotlin.initializer field.kind field.initial).toList
  methods : ∀ method ∈ page.state.methods, '\n' ∉ method.name.toList

theorem newLine_not_mem_classLine (page : Page) : '\n' ∉ page.classLine.toList := by
  have hname : '\n' ∉ (Kotlin.pascalCase page.name).toList := fun h =>
    absurd (Kotlin.digit_le_of_mem_pascalCase _ h) (by decide)
  simp only [Page.classLine, Kotlin.stateHolderType, String.toList_append, List.mem_append, not_or]
  exact ⟨⟨by decide, hname, by decide⟩, by decide⟩

theorem Field.IsCellLine.newLine_not_mem {field : Field} {line : String}
    (h : field.IsCellLine line) (hname : '\n' ∉ field.name.toList)
    (hinitial : '\n' ∉ (Kotlin.initializer field.kind field.initial).toList) :
    '\n' ∉ line.toList := by
  obtain ⟨type, htype, rfl⟩ := h
  have hline : '\n' ∉ type.toList := by
    unfold Kotlin.typeName? at htype
    split at htype <;> cases htype <;> decide
  simp only [String.toList_append, List.mem_append, not_or]
  exact ⟨⟨⟨⟨⟨⟨by decide, hname⟩, by decide⟩, hline⟩, by decide⟩, hinitial⟩, by decide⟩

theorem newLine_not_mem_writtenLine {line : List Char} (h : '\n' ∉ line) :
    '\n' ∉ (writtenLine line).toList := by
  rw [writtenLine]
  split
  · exact List.not_mem_nil
  · rw [String.toList_append, List.mem_append, not_or]
    refine ⟨by decide, fun hmem => h (List.mem_reverse.mp ?_)⟩
    rw [String.toList_ofList, Text.trimEnd, List.mem_reverse] at hmem
    exact (List.dropWhile_suffix _).subset hmem

theorem newLine_not_mem_functionLines {method : Method} (h : '\n' ∉ method.name.toList) :
    ∀ line ∈ method.functionLines, '\n' ∉ line.toList := by
  rw [Method.functionLines, List.cons_append, List.forall_mem_cons, List.forall_mem_append,
    List.forall_mem_map, List.forall_mem_singleton]
  refine ⟨?_, fun line hline => ?_, by decide⟩
  · simp only [Method.openingLine, String.toList_append, List.mem_append, not_or]
    exact ⟨⟨by decide, h⟩, by decide⟩
  · exact newLine_not_mem_writtenLine (linesFrom_line List.not_mem_nil line hline)

/-! ### Sections with an empty line between them -/

section Sections

variable {sections : List (List String)}

theorem forall_mem_intercalate {P : String → Prop} (hempty : P "")
    (h : ∀ lines ∈ sections, ∀ line ∈ lines, P line) : ∀ line ∈ [""].intercalate sections, P line := by
  induction sections with
  | nil => exact List.forall_mem_nil P
  | cons first rest ih =>
    obtain ⟨hfirst, hrest⟩ := List.forall_mem_cons.mp h
    cases rest with
    | nil => rwa [List.intercalate_singleton]
    | cons second rest =>
      rw [List.intercalate_cons_cons, List.forall_mem_append, List.forall_mem_append,
        List.forall_mem_singleton]
      exact ⟨⟨hfirst, hempty⟩, ih hrest⟩

theorem filter_intercalate {p : String → Bool} (hempty : p "" = false)
    (sections : List (List String)) :
    ([""].intercalate sections).filter p = sections.flatMap (List.filter p) := by
  induction sections with
  | nil => rfl
  | cons first rest ih =>
    cases rest with
    | nil => rw [List.intercalate_singleton, List.flatMap_singleton]
    | cons second rest =>
      rw [List.intercalate_cons_cons, List.filter_append, List.filter_append, ih,
        List.filter_cons_of_neg (by simpa using hempty), List.filter_nil, List.append_nil]
      rfl

/-- If no section begins or ends with an empty line, neither do all of them
together. -/
theorem ends_intercalate
    (h : ∀ lines ∈ sections, lines ≠ [] ∧ lines.head? ≠ some "" ∧ lines.getLast? ≠ some "") :
    ([""].intercalate sections).head? ≠ some "" ∧
      ([""].intercalate sections).getLast? ≠ some "" := by
  induction sections with
  | nil => exact ⟨nofun, nofun⟩
  | cons first rest ih =>
    obtain ⟨⟨hne, hhead, hlast⟩, hrest⟩ := List.forall_mem_cons.mp h
    cases rest with
    | nil => exact ⟨by rwa [List.intercalate_singleton], by rwa [List.intercalate_singleton]⟩
    | cons second rest =>
      have hlater : [""].intercalate (second :: rest) ≠ [] := by
        have hsecond := (List.forall_mem_cons.mp hrest).1.1
        cases rest <;> simp [hsecond]
      rw [List.intercalate_cons_cons, List.append_assoc, List.head?_append_of_ne_nil _ hne,
        ← List.append_assoc, List.getLast?_append_of_ne_nil _ hlater]
      exact ⟨hhead, (ih hrest).2⟩

end Sections

/-! ### The fifth column -/

/-- The first five columns decide whether a line starts in the fifth one. -/
theorem isMemberLine_append {opening : String} (h : 4 < opening.toList.length) (rest : String) :
    isMemberLine (opening ++ rest) = isMemberLine opening := by
  rw [isMemberLine, isMemberLine, String.toList_append,
    List.take_append_of_le_length (Nat.le_of_lt h), List.getElem?_append_left h]

theorem Field.IsCellLine.isMemberLine {field : Field} {line : String} (h : field.IsCellLine line) :
    isMemberLine line = true := by
  obtain ⟨type, -, rfl⟩ := h
  simp only [String.append_assoc]
  exact isMemberLine_append (by decide) _

theorem isMemberLine_writtenLine (line : List Char) : isMemberLine (writtenLine line) = false := by
  rw [writtenLine]
  split
  · rfl
  · exact isMemberLine_append (by decide) _

/-- Of the lines of a function, the first and the last start in the fifth
column. -/
theorem Method.filter_functionLines (method : Method) :
    method.functionLines.filter isMemberLine = [method.openingLine, closingLine] := by
  have hopening : isMemberLine method.openingLine = true := by
    rw [openingLine, String.append_assoc]
    exact isMemberLine_append (by decide) _
  have hbody : ((Text.lines (dropSelfScope method.body).toList).map writtenLine).filter
      isMemberLine = [] := by
    rw [List.filter_eq_nil_iff, List.forall_mem_map]
    exact fun line _ => by rw [isMemberLine_writtenLine]; exact Bool.false_ne_true
  rw [functionLines, List.filter_append, List.filter_cons_of_pos hopening, hbody]
  rfl

/-- Of the lines of a class, those that start in the fifth column are the cells
and the first and last lines of the functions. -/
theorem filter_classLines {cells : List String} (h : ∀ cell ∈ cells, isMemberLine cell = true)
    (methods : List Method) :
    (classLines cells methods).filter isMemberLine
      = cells ++ methods.flatMap fun method => [method.openingLine, closingLine] := by
  have hcells : (if cells = [] then [] else [cells]).flatMap (List.filter isMemberLine) = cells := by
    split
    · next hnil => exact hnil.symm
    · rw [List.flatMap_singleton, List.filter_eq_self.mpr h]
  rw [classLines, filter_intercalate rfl, List.flatMap_append, hcells, List.flatMap_map]
  exact congrArg (cells ++ ·) (List.flatMap_congr fun method _ => method.filter_functionLines)

theorem ends_classLines {cells : List String} (h : ∀ cell ∈ cells, isMemberLine cell = true)
    (methods : List Method) :
    (classLines cells methods).head? ≠ some "" ∧
      (classLines cells methods).getLast? ≠ some "" := by
  refine ends_intercalate (List.forall_mem_append.mpr ⟨fun lines hlines => ?_, ?_⟩)
  · split at hlines
    · cases hlines
    · next hne =>
      obtain rfl := List.mem_singleton.mp hlines
      have hempty : "" ∉ lines := fun hmem => absurd (h "" hmem) (by decide)
      exact ⟨hne, fun hhead => hempty (List.mem_of_head? hhead),
        fun hlast => hempty (List.mem_of_getLast? hlast)⟩
  · rw [List.forall_mem_map]
    intro method _
    refine ⟨List.append_ne_nil_of_left_ne_nil (List.cons_ne_nil _ _) _, ?_, ?_⟩
    · simp [Method.functionLines, Method.openingLine]
    · rw [Method.functionLines, List.getLast?_append, List.getLast?_singleton, Option.some_or]
      decide

theorem newLine_not_mem_classLines {fields : List Field} {methods : List Method}
    {cells : List String} (hcells : List.Forall₂ Field.IsCellLine fields cells)
    (hfields : ∀ field ∈ fields, '\n' ∉ field.name.toList ∧
      '\n' ∉ (Kotlin.initializer field.kind field.initial).toList)
    (hmethods : ∀ method ∈ methods, '\n' ∉ method.name.toList) :
    ∀ line ∈ classLines cells methods, '\n' ∉ line.toList := by
  refine forall_mem_intercalate (by decide) (List.forall_mem_append.mpr ⟨?_, ?_⟩)
  · intro lines hlines cell hcell
    split at hlines
    · cases hlines
    · obtain rfl := List.mem_singleton.mp hlines
      obtain ⟨field, hfield, hline⟩ := exists_field_of_cellLine hcells hcell
      exact hline.newLine_not_mem (hfields field hfield).1 (hfields field hfield).2
  · rw [List.forall_mem_map]
    exact fun method hmethod => newLine_not_mem_functionLines (hmethods method hmethod)

theorem Page.opensClass_classLine (page : Page) : opensClass page.classLine = true := by
  rw [opensClass, classLine, String.append_assoc, String.toList_append,
    List.isPrefixOf_iff_prefix]
  exact List.prefix_append _ _

/-! ### The source text -/

theorem Field.cell_eq_error_iff {field : Field} {failure : Failure} :
    field.cell = .error failure ↔
      ∃ kind, field.kind = .unsupported kind ∧
        failure = .unsupportedFieldType field.name kind := by
  rw [cell]
  cases field.kind with
  | unsupported kind =>
    constructor
    · intro h
      exact ⟨kind, rfl, (Except.error.inj h).symm⟩
    · rintro ⟨_, hkind, rfl⟩
      cases hkind
      rfl
  | _ => simp [Kotlin.typeName?]

theorem Field.exists_cell_iff {field : Field} :
    (∃ text, field.cell = .ok text) ↔ ∀ kind, field.kind ≠ .unsupported kind := by
  rw [cell]
  cases field.kind <;> simp [Kotlin.typeName?]

namespace Page

variable {page : Page} {settings : Settings}

theorem stateHolder_eq_error_iff {failure : Failure} :
    page.stateHolder settings = .error failure ↔
      page.state.fields.mapM Field.cell = .error failure := by
  rw [stateHolder, PageState.sections]
  cases page.state.fields.mapM Field.cell with
  | error failure' =>
    constructor
    · intro h
      exact congrArg Except.error (Except.error.inj h)
    · intro h
      exact congrArg Except.error (Except.error.inj h)
  | ok texts =>
    constructor
    · intro h
      cases h
    · intro h
      cases h

/-- A state holder fails with the first field of a kind without a type. -/
theorem stateHolder_error_iff {failure : Failure} :
    page.stateHolder settings = .error failure ↔
      ∃ before field after kind, page.state.fields = before ++ field :: after ∧
        (∀ other ∈ before, ∀ name, other.kind ≠ .unsupported name) ∧
        field.kind = .unsupported kind ∧ failure = .unsupportedFieldType field.name kind := by
  rw [stateHolder_eq_error_iff, mapM_eq_error_iff]
  simp only [Field.exists_cell_iff, Field.cell_eq_error_iff]
  constructor
  · rintro ⟨before, field, after, hfields, hbefore, kind, hkind, hfailure⟩
    exact ⟨before, field, after, kind, hfields, hbefore, hkind, hfailure⟩
  · rintro ⟨before, field, after, kind, hfields, hbefore, hkind, hfailure⟩
    exact ⟨before, field, after, hfields, hbefore, kind, hkind, hfailure⟩

theorem exists_stateHolder_iff :
    (∃ source, page.stateHolder settings = .ok source) ↔
      ∀ field ∈ page.state.fields, ∀ kind, field.kind ≠ .unsupported kind := by
  constructor
  · rintro ⟨source, h⟩ field hfield
    rw [stateHolder, PageState.sections] at h
    obtain ⟨sections, hsections, -⟩ := bind_eq_ok h
    obtain ⟨texts, htexts, -⟩ := bind_eq_ok hsections
    obtain ⟨text, -, htext⟩ := exists_of_mapM_ok htexts hfield
    exact Field.exists_cell_iff.mp ⟨text, htext⟩
  · intro h
    cases hsource : page.stateHolder settings with
    | ok source => exact ⟨source, rfl⟩
    | error failure =>
      obtain ⟨before, field, after, kind, hfields, -, hkind, -⟩ := stateHolder_error_iff.mp hsource
      exact absurd hkind (h field (by simp [hfields]) kind)

/-- The lines of a state holder from the one on that opens its class. -/
theorem exists_stateHolder_lines {source : String} (h : page.stateHolder settings = .ok source)
    (hline : page.OneLined settings) :
    ∃ cells, List.Forall₂ Field.IsCellLine page.state.fields cells ∧
      (sourceLines source).dropWhile (!opensClass ·)
        = page.classLine :: (classLines cells page.state.methods ++ ["\x7d", ""]) := by
  rw [stateHolder] at h
  obtain ⟨sections, hsections, h⟩ := bind_eq_ok h
  obtain ⟨cells, hcells, htext⟩ := PageState.sections_eq_ok hsections
  refine ⟨cells, hcells, ?_⟩
  -- The text is that of the lines of the head, followed by the lines of the class.
  obtain ⟨head, hhead, hplain⟩ := ((isHead_banner hline.name).append
    (isHead_packageClause hline.package)).append (isHead_imports page.state)
  have hsource : source = ofLines (head ++ page.classLine :: (classLines cells page.state.methods
      ++ ["\x7d"])) := by
    rw [ofLines_append, ← hhead, ofLines_cons, ofLines_append, ← htext, ← header_eq]
    obtain rfl := Except.ok.inj h
    simp [classLine, ofLines, String.append_assoc]
  have hlines : ∀ line ∈ head ++ page.classLine :: (classLines cells page.state.methods
      ++ ["\x7d"]), '\n' ∉ line.toList := by
    rw [List.forall_mem_append, List.forall_mem_cons, List.forall_mem_append,
      List.forall_mem_singleton]
    exact ⟨fun line hmem => (hplain line hmem).1, newLine_not_mem_classLine page,
      newLine_not_mem_classLines hcells hline.fields hline.methods, by decide⟩
  rw [hsource, sourceLines_ofLines hlines, List.append_assoc, List.dropWhile_append_of_pos,
    List.cons_append, List.dropWhile_cons_of_neg (by simp [page.opensClass_classLine]), List.append_assoc]
  · rfl
  · exact fun line hmem => by simpa using (hplain line hmem).2

/-- **A state holder keeps its members and the bodies of its methods apart.**
It fails exactly if some field has a kind without a type, and then with the first
such field.  Otherwise, if what it takes from the page stands in one line each,
the lines of its class are the cells of the fields, then the function of each
method, with an empty line between such sections and none before or behind them,
and a closing brace.  Only the cells and the first and last lines of the
functions start in the fifth column, whatever the methods hold. -/
theorem stateHolder_layout (page : Page) (settings : Settings) :
    ((∃ source, page.stateHolder settings = .ok source) ↔
      ∀ field ∈ page.state.fields, ∀ kind, field.kind ≠ .unsupported kind) ∧
    (∀ failure, page.stateHolder settings = .error failure ↔
      ∃ before field after kind, page.state.fields = before ++ field :: after ∧
        (∀ other ∈ before, ∀ name, other.kind ≠ .unsupported name) ∧
        field.kind = .unsupported kind ∧ failure = .unsupportedFieldType field.name kind) ∧
    ∀ source, page.stateHolder settings = .ok source → page.OneLined settings →
      ∃ cells, List.Forall₂ Field.IsCellLine page.state.fields cells ∧
        (sourceLines source).dropWhile (!opensClass ·)
          = page.classLine :: (classLines cells page.state.methods ++ ["\x7d", ""]) ∧
        (classLines cells page.state.methods ++ ["\x7d", ""]).filter isMemberLine
          = cells ++ page.state.methods.flatMap
            (fun method => [method.openingLine, closingLine]) ∧
        (classLines cells page.state.methods).head? ≠ some "" ∧
        (classLines cells page.state.methods).getLast? ≠ some "" := by
  refine ⟨exists_stateHolder_iff, fun _ => stateHolder_error_iff, fun source h hline => ?_⟩
  obtain ⟨cells, hcells, hlines⟩ := exists_stateHolder_lines h hline
  have hmembers : ∀ cell ∈ cells, isMemberLine cell = true := by
    intro cell hcell
    obtain ⟨field, -, hfield⟩ := exists_field_of_cellLine hcells hcell
    exact hfield.isMemberLine
  refine ⟨cells, hcells, hlines, ?_, ends_classLines hmembers _⟩
  rw [List.filter_append, filter_classLines hmembers]
  exact List.append_nil _

end Page

/-- A page with a method whose body looks like the end of a function and the
beginning of another one, and a method without a body. -/
def disguisedPage : Page where
  name := "counter"
  state :=
    { fields := [⟨"count", .number, "0"⟩]
      methods := [⟨"reset", "this.count.value = 0\r\n\n\x7d\n    fun other() \x7b \n \t"⟩,
        ⟨"clear", ""⟩] }
  root := { component := "Text" }

/-- The cell of the page and the functions that it declares, and nothing else,
start in the fifth column. -/
theorem disguisedPage_layout :
    disguisedPage.OneLined {} ∧
    ∃ source, disguisedPage.stateHolder {} = .ok source ∧
      (sourceLines source).dropWhile (!opensClass ·)
        = ["class CounterStateHolder : ViewModel() \x7b",
          "    val count = mutableStateOf<Int>(0)", "",
          "    fun reset() \x7b", "        count.value = 0", "", "        \x7d",
          "            fun other() \x7b", "", "    \x7d", "",
          "    fun clear() \x7b", "    \x7d", "\x7d", ""] ∧
      ((sourceLines source).dropWhile (!opensClass ·)).tail.filter isMemberLine
        = ["    val count = mutableStateOf<Int>(0)",
          "    fun reset() \x7b", "    \x7d", "    fun clear() \x7b", "    \x7d"] := by
  have hline : disguisedPage.OneLined {} := ⟨by decide, by decide, by decide, by decide⟩
  obtain ⟨hok, -, hlayout⟩ := disguisedPage.stateHolder_layout {}
  obtain ⟨source, hsource⟩ := hok.mpr (by simp [disguisedPage])
  obtain ⟨cells, hcells, hlines, hmembers, -⟩ := hlayout source hsource hline
  obtain rfl : cells = ["    val count = mutableStateOf<Int>(0)"] := by
    obtain ⟨cell, rest, ⟨type, htype, rfl⟩, hrest, rfl⟩ := List.forall₂_cons_left_iff.mp hcells
    obtain rfl : "Int" = type := Option.some.inj htype
    rw [List.forall₂_nil_left_iff.mp hrest]
    decide
  refine ⟨hline, source, hsource, hlines.trans (by decide +kernel), ?_⟩
  rw [hlines, List.tail_cons, hmembers]
  decide

end Pagewright
