/-
Views of strict pages refer to nothing that their state holders lack.

In strict mode, validation looks at the same places of the same property
values that the view rewrites, and at the same actions that it calls:

* `Page.stateHolder_holds` — every declared member stands in the source text
  of the state holder;
* `Page.strict_references_declared` — every reference and every action of a
  page that is rendered names a member of its state holder.
-/
import Pagewright.Proofs.Defects
import Pagewright.Proofs.Names
import Pagewright.Proofs.Occurrences
import Pagewright.Proofs.Violations

namespace Pagewright

/-- A source text holds a piece of text somewhere. -/
def Holds (source piece : String) : Prop :=
  ∃ before after, source = before ++ piece ++ after

namespace Holds

variable {source piece : String}

theorem refl (source : String) : Holds source source :=
  ⟨"", "", by simp⟩

theorem append_right (h : Holds source piece) (text : String) : Holds (source ++ text) piece := by
  obtain ⟨before, after, rfl⟩ := h
  exact ⟨before, after ++ text, by simp [String.append_assoc]⟩

theorem append_left (h : Holds source piece) (text : String) : Holds (text ++ source) piece := by
  obtain ⟨before, after, rfl⟩ := h
  exact ⟨text ++ before, after, by simp [String.append_assoc]⟩

theorem join {entries : List String} (h : Holds source piece) (hmem : source ∈ entries) :
    Holds (String.join entries) piece := by
  obtain ⟨front, back, rfl⟩ := List.append_of_mem hmem
  rw [String.join_append, String.join_cons]
  exact (h.append_right _).append_left _

theorem intercalate {entries : List String} (h : Holds source piece) (hmem : source ∈ entries)
    (separator : String) : Holds (separator.intercalate entries) piece := by
  induction entries with
  | nil => simp at hmem
  | cons first rest ih =>
    rcases List.mem_cons.mp hmem with rfl | hmem
    · cases rest with
      | nil => simpa using h
      | cons second rest =>
        rw [String.intercalate_cons_cons]
        exact (h.append_right _).append_right _
    · rw [String.intercalate_cons_of_ne_nil (List.ne_nil_of_mem hmem)]
      exact (ih hmem).append_left _

end Holds

/-! ### The text of a state holder -/

theorem Field.cell_holds {field : Field} {cell : String} (h : field.cell = .ok cell) :
    Holds cell ("    val " ++ field.name ++ " = mutableStateOf<") := by
  rw [Field.cell] at h
  split at h
  · next type _ =>
    obtain rfl := Except.ok.inj h
    exact ⟨"", type ++ ">(" ++ Kotlin.initializer field.kind field.initial ++ ")\n",
      by simp [String.append_assoc, Kotlin.indent]⟩
  · cases h

theorem Method.function_holds (method : Method) :
    Holds method.function ("    fun " ++ method.name ++ "() \x7b\n") := by
  have hindent : Kotlin.indent 1 = "    " := by decide
  rw [Method.function, hindent]
  exact (((Holds.refl _).append_right _).append_right _).append_right _

theorem PageState.sections_holds {state : PageState} {sections : List String}
    (h : state.sections = .ok sections) :
    (∀ field ∈ state.fields, ∃ text ∈ sections,
      Holds text ("    val " ++ field.name ++ " = mutableStateOf<")) ∧
    ∀ method ∈ state.methods, ∃ text ∈ sections,
      Holds text ("    fun " ++ method.name ++ "() \x7b\n") := by
  rw [PageState.sections] at h
  obtain ⟨cells, hcells, h⟩ := bind_eq_ok h
  obtain rfl := Except.ok.inj h
  constructor
  · intro field hfield
    obtain ⟨cell, hmem, hcell⟩ := exists_of_mapM_ok hcells hfield
    -- The section of fields is left out only if there are none.
    have hne : cells.isEmpty = false := by
      simpa using List.ne_nil_of_mem hmem
    refine ⟨String.join cells, ?_, (Field.cell_holds hcell).join hmem⟩
    rw [hne]
    exact List.mem_append_left _ (by simp)
  · intro method hmethod
    exact ⟨method.function, List.mem_append_right _ (List.mem_map_of_mem hmethod),
      method.function_holds⟩

/-- The source text of a state holder holds the beginning of the cell of every
field and of the function of every method. -/
theorem Page.stateHolder_holds {page : Page} {settings : Settings} {source : String}
    (h : page.stateHolder settings = .ok source) :
    (∀ field ∈ page.state.fields,
      Holds source ("    val " ++ field.name ++ " = mutableStateOf<")) ∧
    ∀ method ∈ page.state.methods, Holds source ("    fun " ++ method.name ++ "() \x7b\n") := by
  rw [stateHolder] at h
  obtain ⟨sections, hsections, h⟩ := bind_eq_ok h
  obtain rfl := Except.ok.inj h
  obtain ⟨hfields, hmethods⟩ := PageState.sections_holds hsections
  constructor
  · intro field hfield
    obtain ⟨text, hmem, htext⟩ := hfields field hfield
    exact ((htext.intercalate hmem _).append_left _).append_right _
  · intro method hmethod
    obtain ⟨text, hmem, htext⟩ := hmethods method hmethod
    exact ((htext.intercalate hmem _).append_left _).append_right _

/-! ### Agreement -/

/-- A member is declared, and wherever it is declared as a field or as a
method, a source text holds the beginning of its cell or function. -/
structure PageState.DeclaredIn (state : PageState) (source member : String) : Prop where
  declared : (∃ field ∈ state.fields, field.name = member) ∨
    ∃ method ∈ state.methods, method.name = member
  cell : (∃ field ∈ state.fields, field.name = member) →
    Holds source ("    val " ++ member ++ " = mutableStateOf<")
  function : (∃ method ∈ state.methods, method.name = member) →
    Holds source ("    fun " ++ member ++ "() \x7b\n")

theorem Page.declaredIn_of_declared {page : Page} {settings : Settings} {source member : String}
    (h : page.stateHolder settings = .ok source)
    (hdeclared : (∃ field ∈ page.state.fields, field.name = member) ∨
      ∃ method ∈ page.state.methods, method.name = member) :
    page.state.DeclaredIn source member := by
  obtain ⟨hfields, hmethods⟩ := Page.stateHolder_holds h
  refine ⟨hdeclared, ?_, ?_⟩
  · rintro ⟨field, hfield, rfl⟩
    exact hfields field hfield
  · rintro ⟨method, hmethod, rfl⟩
    exact hmethods method hmethod

theorem PageState.exists_method_of_allowsAction {state : PageState} {action : Action}
    (h : state.allowsAction action = true) (hinvoke : action.kind = .invoke) :
    ∃ method ∈ state.methods, method.name = action.method := by
  simpa [allowsAction, hinvoke, method?, List.find?_isSome] using h

/-- Everything that a node refers to is declared: the view puts the binding
at the places of the page scope in its property values, the word behind each
of them is a member, and its actions invoke methods. -/
structure Node.BackedBy (node : Node) (state : PageState) (binding source : String) : Prop where
  references : ∀ value ∈ node.props.values, ∃ starts,
    Found pageScope.toList value.toList 0 starts ∧
    bindPageScope value binding = String.ofList (replaceAt (binding.toList ++ ['.'])
      pageScope.toList.length value.toList 0 starts) ∧
    ∀ start ∈ starts,
      state.DeclaredIn source (wordAt value.toList (start + pageScope.toList.length))
  actions : ∀ event ∈ node.events, ∀ action ∈ event.actions, action.kind = .invoke ∧
    (∃ method ∈ state.methods, method.name = action.method) ∧
    state.DeclaredIn source action.method

/-- **Nothing that a strict page refers to is missing from its state holder.**
If a strict page is rendered, every reference and every action at every node
of its tree names a declared member, whose declaration stands in the text of
the state holder. -/
theorem Page.strict_references_declared {page : Page} {registry : Registry}
    {settings : Settings} {sources : PageSources} (hstrict : settings.strict = true)
    (h : page.render registry settings = .ok sources) :
    ∀ node : Node, node.IsIn page.root →
      node.BackedBy page.state settings.binding sources.stateHolder.content := by
  intro node hin
  obtain ⟨hvalid, hholder, hview, -, -⟩ := Page.render_eq_ok h
  obtain ⟨path, hplaced⟩ := Node.exists_placed hin (.ofRoot page.root)
  -- Validation and the view have both looked at the node, at the same path.
  have hviolations := (page.validate_reports settings).ok_iff.mp ⟨_, hvalid⟩
  rw [Page.violations, hstrict, if_pos rfl] at hviolations
  have hown := List.flatMap_eq_nil_iff.mp (List.append_eq_nil_iff.mp hviolations).2 _ hplaced
  obtain ⟨hmembers, hactions⟩ := Node.ownViolations_eq_nil hown
  have hdefects := (page.view_reports registry settings).ok_iff.mp ⟨_, hview⟩
  have hinvoke := Node.ownDefects_eq_nil (List.flatMap_eq_nil_iff.mp hdefects _ hplaced)
  constructor
  · intro value hvalue
    -- The places that the view rewrites are those that validation read members from.
    have hscope : pageScope ≠ "" := by decide
    obtain ⟨starts, hfound⟩ : ∃ starts, Found pageScope.toList value.toList 0 starts :=
      exists_found (by decide) 0
    refine ⟨starts, hfound, ScopedText.render_of_found hscope hfound _, fun start hstart => ?_⟩
    refine Page.declaredIn_of_declared hholder (PageState.hasMember_iff.mp ?_)
    refine hmembers value hvalue _ ?_
    rw [ScopedText.members_of_found hscope hfound]
    exact List.mem_map_of_mem hstart
  · intro event hevent action haction
    have hkind := hinvoke event hevent action haction
    have hmethod := PageState.exists_method_of_allowsAction
      (hactions event hevent action haction) hkind
    exact ⟨hkind, hmethod, Page.declaredIn_of_declared hholder (.inr hmethod)⟩

/-- A page that counts: a text shows its field, a button calls its method. -/
def counterPage : Page where
  name := "counter"
  state := ⟨[⟨"count", .number, "0"⟩], [⟨"increment", "this.count.value++"⟩]⟩
  root := ({ component := "Column" } : Node)
    |>.withChild (({ component := "Text" } : Node).withProp "text" "page.count.value")
    |>.withChild (({ component := "Button" } : Node).withEvent
      ⟨"onClick", [⟨.invoke, "increment"⟩]⟩)

/-- The counter is rendered in strict mode, so its button and its text are
backed by its state holder. -/
theorem counterPage_references_declared :
    ∃ sources, counterPage.render .compose { strict := true } = .ok sources ∧
      ∀ node : Node, node.IsIn counterPage.root →
        node.BackedBy counterPage.state "viewModel" sources.stateHolder.content := by
  have hok : (counterPage.render .compose { strict := true }).isOk = true := by decide +kernel
  cases h : counterPage.render .compose { strict := true } with
  | error failure =>
    rw [h] at hok
    cases hok
  | ok sources => exact ⟨sources, rfl, Page.strict_references_declared rfl h⟩

end Pagewright
