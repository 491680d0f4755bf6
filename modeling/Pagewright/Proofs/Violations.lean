/-
What validation finds wrong with a page.

`Page.violations` collects everything in the order of reading: names of
fields and then of methods that came before, and for a strict page the nodes
of its tree in pre-order, each with the references of its properties before
the actions of its events.

* `Page.validate_reports` — validation reports these violations;
* `Page.validate_first_violation` — a page is valid exactly if there are none,
  and otherwise the first of them is the failure;
* `Node.ownViolations_eq_nil` — what holds of a node without violations.
-/
import Pagewright.Proofs.Report
import Pagewright.Proofs.Tree
import Pagewright.Validation

namespace Pagewright

variable {state : PageState} {path : NodePath}

/-- The names of a list that came before in it. -/
def repeatedNames (failure : String → Failure) (names : List String) : List Failure :=
  names.zipIdx.flatMap fun (name, index) =>
    if name ∈ names.take index then [failure name] else []

/-- The references of a property value that name no member. -/
def PageState.undeclared (state : PageState) (path : NodePath) (value : String) : List Failure :=
  ((ScopedText.read value pageScope).members.filter (!state.hasMember ·)).map
    (.unknownScopeReference · path)

/-- What is wrong with the method that an action names. -/
def PageState.untargeted (state : PageState) (path : NodePath) (action : Action) : List Failure :=
  if state.allowsAction action then [] else [.unknownActionTarget action.method path]

namespace Node

/-- The violations of a node apart from its children. -/
def ownViolations (state : PageState) (path : NodePath) (node : Node) : List Failure :=
  node.props.values.flatMap (state.undeclared path)
    ++ (node.events.flatMap (·.actions)).flatMap (state.untargeted path)

/-- The violations of a tree, in pre-order. -/
def violations (state : PageState) (root : Node) : List Failure :=
  (root.placed (.ofRoot root)).flatMap fun (path, node) => node.ownViolations state path

end Node

/-- The violations of a page. -/
def Page.violations (page : Page) (settings : Settings) : List Failure :=
  repeatedNames .duplicateField (page.state.fields.map (·.name))
    ++ repeatedNames .duplicateMethod (page.state.methods.map (·.name))
    ++ if settings.strict then page.root.violations page.state else []

/-! ### Distinct names -/

/-- Names that follow others, all of which have been seen. -/
theorem firstRepeated_eq_head? (failure : String → Failure) (earlier : List String) :
    ∀ {names seen : List String}, (∀ name, name ∈ seen ↔ name ∈ earlier) →
      (firstRepeated seen names).map failure
        = ((names.zipIdx earlier.length).flatMap fun (name, index) =>
            if name ∈ (earlier ++ names).take index then [failure name] else []).head? := by
  intro names
  induction names generalizing earlier with
  | nil => exact fun _ => rfl
  | cons name names ih =>
    intro seen hseen
    rw [List.zipIdx_cons, List.flatMap_cons, firstRepeated]
    dsimp only
    rw [List.take_left]
    by_cases h : name ∈ seen
    · rw [if_pos (List.contains_iff_mem.mpr h), if_pos ((hseen name).mp h)]
      rfl
    · rw [if_neg (mt List.contains_iff_mem.mp h), if_neg (mt (hseen name).mpr h)]
      -- Those seen before the next name are those in front of it.
      have hseen' : ∀ other, other ∈ name :: seen ↔ other ∈ earlier ++ [name] := by
        intro other
        simp [hseen, or_comm]
      have hlater := ih _ hseen'
      rw [List.length_append, List.append_assoc] at hlater
      exact hlater

theorem checkDistinct_reports (names : List String) (failure : String → Failure) :
    Reports (checkDistinct names failure) (repeatedNames failure names) := by
  have h : (firstRepeated [] names).map failure = (repeatedNames failure names).head? :=
    firstRepeated_eq_head? failure [] fun _ => Iff.rfl
  have hcheck := reports_head? h
  rw [checkDistinct]
  cases hfirst : firstRepeated [] names with
  | none => rwa [hfirst] at hcheck
  | some name => rwa [hfirst] at hcheck

/-! ### References -/

theorem head?_undeclared (value : String) :
    (state.undeclared path value).head?
      = (state.missingMember? value).map (.unknownScopeReference · path) := by
  rw [PageState.undeclared, PageState.missingMember?, List.head?_map, List.head?_filter]

theorem head?_undeclared_values (state : PageState) (path : NodePath) (values : List String) :
    (values.flatMap (state.undeclared path)).head?
      = (values.findSome? state.missingMember?).map (.unknownScopeReference · path) := by
  induction values with
  | nil => rfl
  | cons value values ih =>
    rw [List.flatMap_cons, List.head?_append, ih, head?_undeclared, List.findSome?_cons]
    cases state.missingMember? value <;> rfl

theorem head?_untargeted (state : PageState) (path : NodePath) (actions : List Action) :
    (actions.flatMap (state.untargeted path)).head?
      = (actions.find? (!state.allowsAction ·)).map fun action =>
        .unknownActionTarget action.method path := by
  induction actions with
  | nil => rfl
  | cons action actions ih =>
    rw [List.flatMap_cons, List.head?_append, ih, List.find?_cons, PageState.untargeted]
    cases state.allowsAction action <;> rfl

theorem checkOwnReferences_reports (node : Node) :
    Reports (checkOwnReferences state path node.props node.events)
      (node.ownViolations state path) := by
  have hprops := head?_undeclared_values state path node.props.values
  have hevents := head?_untargeted state path (node.events.flatMap (·.actions))
  rw [checkOwnReferences]
  cases hmissing : node.props.values.findSome? state.missingMember? with
  | some member =>
    -- An undeclared member is found before any action is looked at.
    rw [hmissing] at hprops
    obtain ⟨rest, hrest⟩ := List.head?_eq_some_iff.mp hprops
    rw [Node.ownViolations, hrest]
    exact reports_error _ _
  | none =>
    rw [hmissing] at hprops
    rw [Node.ownViolations, List.head?_eq_none_iff.mp hprops, List.nil_append]
    have hcheck := reports_head? hevents.symm
    cases haction : (node.events.flatMap (·.actions)).find? (!state.allowsAction ·) with
    | none => rwa [haction] at hcheck
    | some action => rwa [haction] at hcheck

mutual

/-- Checking a tree reports the violations of its nodes. -/
theorem checkReferences_reports : ∀ (path : NodePath) (node : Node),
    Reports (checkReferences state path node)
      ((node.placed path).flatMap fun (path, node) => node.ownViolations state path)
  | path, ⟨component, props, events, children⟩ => by
    rw [Node.placed, List.flatMap_cons, checkReferences]
    exact (checkOwnReferences_reports ⟨component, props, events, children⟩).bind fun _ _ =>
      checkChildReferences_reports path 0 children

theorem checkChildReferences_reports : ∀ (path : NodePath) (index : Nat) (children : List Node),
    Reports (checkChildReferences state path index children)
      ((Node.placedAll path index children).flatMap fun (path, node) =>
        node.ownViolations state path)
  | _, _, [] => reports_ok ()
  | path, index, node :: rest => by
    rw [Node.placedAll, List.flatMap_append, checkChildReferences]
    exact (checkReferences_reports _ node).bind fun _ _ =>
      checkChildReferences_reports path (index + 1) rest

end

/-- **Validation reports the violations of a page.** -/
theorem Page.validate_reports (page : Page) (settings : Settings) :
    Reports (page.validate settings) (page.violations settings) := by
  rw [Page.violations, Page.validate, List.append_assoc]
  refine (checkDistinct_reports _ _).bind fun _ _ => ?_
  refine (checkDistinct_reports _ _).bind fun _ _ => ?_
  cases settings.strict with
  | true => exact checkReferences_reports _ _
  | false => exact reports_ok ()

/-- A node without violations refers to members only, and its actions of the
kind that invokes a method name one. -/
theorem Node.ownViolations_eq_nil {node : Node} (h : node.ownViolations state path = []) :
    (∀ value ∈ node.props.values, ∀ member ∈ (ScopedText.read value pageScope).members,
      state.hasMember member = true) ∧
    ∀ event ∈ node.events, ∀ action ∈ event.actions, state.allowsAction action = true := by
  rw [ownViolations, List.append_eq_nil_iff] at h
  obtain ⟨hprops, hevents⟩ := h
  refine ⟨fun value hvalue member hmember => ?_, fun event hevent action haction => ?_⟩
  · have hv := List.flatMap_eq_nil_iff.mp hprops value hvalue
    rw [PageState.undeclared, List.map_eq_nil_iff, List.filter_eq_nil_iff] at hv
    simpa using hv member hmember
  · have ha := List.flatMap_eq_nil_iff.mp hevents action
      (List.mem_flatMap.mpr ⟨event, hevent, haction⟩)
    rw [PageState.untargeted] at ha
    split at ha
    · assumption
    · cases ha

/-! ### Declared names -/

theorem PageState.hasMember_iff {member : String} :
    state.hasMember member = true ↔ (∃ field ∈ state.fields, field.name = member) ∨
      ∃ method ∈ state.methods, method.name = member := by
  simp [hasMember, field?, method?, List.find?_isSome]

theorem PageState.hasMember_eq_false_iff {member : String} :
    state.hasMember member = false ↔
      member ∉ state.fields.map (·.name) ∧ member ∉ state.methods.map (·.name) := by
  rw [← Bool.not_eq_true, hasMember_iff, not_or, List.mem_map, List.mem_map]

theorem PageState.allowsAction_eq_false_iff {action : Action} :
    state.allowsAction action = false ↔
      action.kind = .invoke ∧ action.method ∉ state.methods.map (·.name) := by
  simp [allowsAction, method?]

/-- **Validation reports the first violation.**  A page is valid exactly if it
has no violation, and otherwise the first one is the failure.  Whether a
reference or an action names a member is decided by the declared names alone;
the paths that violations carry are written like the places of their nodes; and
a page that is not strict may show anything. -/
theorem Page.validate_first_violation (page : Page) (settings : Settings) :
    (page.validate settings = .ok () ↔ page.violations settings = []) ∧
    (∀ failure, page.validate settings = .error failure ↔
      (page.violations settings).head? = some failure) ∧
    (∀ member, page.state.hasMember member = false ↔
      member ∉ page.state.fields.map (·.name) ∧ member ∉ page.state.methods.map (·.name)) ∧
    (∀ action, page.state.allowsAction action = false ↔
      action.kind = .invoke ∧ action.method ∉ page.state.methods.map (·.name)) ∧
    (∀ entry ∈ page.root.placed (.ofRoot page.root),
      Node.StandsAt page.root entry.1.text entry.2) ∧
    (settings.strict = false → ∀ root : Node,
      { page with root := root }.validate settings = page.validate settings) := by
  have h := page.validate_reports settings
  have hok : (∃ value, page.validate settings = .ok value) ↔ page.validate settings = .ok () :=
    ⟨fun ⟨_, hvalue⟩ => hvalue, fun hvalid => ⟨(), hvalid⟩⟩
  refine ⟨hok.symm.trans h.ok_iff, h.error_iff, fun _ => PageState.hasMember_eq_false_iff,
    fun _ => PageState.allowsAction_eq_false_iff, Node.placed_standsAt .root, fun hstrict root => ?_⟩
  rw [validate, validate, hstrict]
  rfl

/-- A page whose text refers to a total that is not declared, and whose button
calls a method under a wrong name. -/
def misspeltPage : Page where
  name := "counter"
  state := ⟨[⟨"count", .number, "0"⟩], [⟨"increment", "this.count.value++"⟩]⟩
  root := ({ component := "Column" } : Node)
    |>.withChild (({ component := "Text" } : Node).withProp "text"
      "page.count.value + page.total.value")
    |>.withChild (({ component := "Button" } : Node).withEvent
      ⟨"onClick", [⟨.other "navigate", "home"⟩, ⟨.invoke, "incremnt"⟩]⟩)

/-- In strict mode the reference is reported, which comes before the action, at
the first child of the root; otherwise the page is as good as one that shows
nothing. -/
theorem misspeltPage_first_violation :
    misspeltPage.violations { strict := true }
      = [.unknownScopeReference "total" ⟨"Column", [(0, "Text")]⟩,
        .unknownActionTarget "incremnt" ⟨"Column", [(1, "Button")]⟩] ∧
    misspeltPage.validate { strict := true }
      = .error (.unknownScopeReference "total" ⟨"Column", [(0, "Text")]⟩) ∧
    Node.StandsAt misspeltPage.root "Column/children[0]:Text"
      (({ component := "Text" } : Node).withProp "text" "page.count.value + page.total.value") ∧
    ({} : Settings).strict = false ∧
    { misspeltPage with root := default }.validate {} = misspeltPage.validate {} ∧
    misspeltPage.validate {} = .ok () := by
  have hviolations : misspeltPage.violations { strict := true }
      = [.unknownScopeReference "total" ⟨"Column", [(0, "Text")]⟩,
        .unknownActionTarget "incremnt" ⟨"Column", [(1, "Button")]⟩] := by decide +kernel
  obtain ⟨_, herror, _, _, hplaces, _⟩ :=
    misspeltPage.validate_first_violation { strict := true }
  obtain ⟨hok, _, _, _, _, hlenient⟩ := misspeltPage.validate_first_violation {}
  refine ⟨hviolations, (herror _).mpr (by rw [hviolations]; rfl), ?_, rfl, hlenient rfl default,
    hok.mpr (by decide +kernel)⟩
  exact hplaces (⟨"Column", [(0, "Text")]⟩, _) (List.mem_cons_of_mem _ List.mem_cons_self)

end Pagewright
