/-
What cannot be generated in a component tree.

`Node.defects` collects everything that keeps a tree from becoming a view, in
the order of reading: a node before its children, its component before its
events, and the events one by one.  An event has at most one kind of defect:
its type is unknown, or its parameter is taken, or some of its actions do not
invoke a method.

* `Node.resolve_reports` — resolving a tree reports these defects;
* `Page.view_first_defect` — a view is yielded exactly if there are none, and
  otherwise the first of them, at the place of its node.
-/
import Pagewright.Proofs.Report
import Pagewright.Proofs.Tree
import Pagewright.View.Basic

namespace Pagewright

variable {registry : Registry} {path : NodePath}

/-- What is wrong with an action of a node. -/
def Action.defects (path : NodePath) (action : Action) : List Failure :=
  match action.kind with
  | .invoke => []
  | .other kind => [.unsupportedAction kind path]

/-- The parameters that some events are bound to. -/
def Registry.parameters (registry : Registry) (events : List Event) : List String :=
  events.filterMap fun event => (registry.event? event.type).map (·.parameter)

/-- What is wrong with an event of a node some of whose parameters are
taken. -/
def Event.defects (registry : Registry) (path : NodePath) (taken : List String)
    (event : Event) : List Failure :=
  match registry.event? event.type with
  | none => [.unsupportedEvent event.type path]
  | some rule =>
    if rule.parameter ∈ taken then [.duplicateArgument rule.parameter path]
    else event.actions.flatMap (Action.defects path)

namespace Node

/-- What is wrong with a node apart from its children.  A parameter is taken
by a property or by an event further in front. -/
def ownDefects (registry : Registry) (path : NodePath) (node : Node) : List Failure :=
  (match registry.component? node.component with
    | some _ => []
    | none => [.unknownComponent node.component path])
  ++ node.events.zipIdx.flatMap fun (event, index) =>
    event.defects registry path
      (node.props.names ++ registry.parameters (node.events.take index))

/-- What is wrong with a tree, in pre-order. -/
def defects (registry : Registry) (root : Node) : List Failure :=
  (root.placed (.ofRoot root)).flatMap fun (path, node) => node.ownDefects registry path

end Node

theorem Action.resolve_reports (action : Action) :
    Reports (action.resolve path) (action.defects path) := by
  unfold Action.resolve Action.defects
  cases action.kind with
  | invoke => exact reports_ok action.method
  | other kind => exact reports_error _ _

theorem Event.defects_of_rule {event : Event} {rule : EventRule}
    (h : registry.event? event.type = some rule) (taken : List String) :
    event.defects registry path taken
      = if rule.parameter ∈ taken then [.duplicateArgument rule.parameter path]
        else event.actions.flatMap (Action.defects path) := by
  rw [Event.defects, h]

theorem resolveEvents_cons (bound : List String) (event : Event) (events : List Event) :
    resolveEvents registry path bound (event :: events)
      = match registry.event? event.type with
        | none => .error (.unsupportedEvent event.type path)
        | some rule =>
          if rule.parameter ∈ bound then .error (.duplicateArgument rule.parameter path)
          else event.actions.mapM (Action.resolve path) >>= fun methods =>
            resolveEvents registry path (rule.parameter :: bound) events >>= fun arguments =>
              .ok (⟨rule.parameter, .callback methods⟩ :: arguments) := by
  rw [resolveEvents]
  cases registry.event? event.type with
  | none => rfl
  | some rule =>
    -- Parameters are looked up with `contains` when events are resolved.
    by_cases h : rule.parameter ∈ bound
    · have hc : bound.contains rule.parameter = true := by simpa using h
      simp only [if_pos h]
      exact if_pos hc
    · have hc : ¬bound.contains rule.parameter = true := by simpa using h
      simp only [if_neg h]
      exact if_neg hc

/-- Resolving the events of a node that follow others, which with the
properties have bound their parameters already. -/
theorem resolveEvents_reports (names : List String) (earlier : List Event) :
    ∀ {events : List Event} {bound : List String},
      (∀ parameter, parameter ∈ bound ↔
        parameter ∈ names ++ registry.parameters earlier) →
      Reports (resolveEvents registry path bound events)
        ((events.zipIdx earlier.length).flatMap fun (event, index) =>
          event.defects registry path
            (names ++ registry.parameters ((earlier ++ events).take index))) := by
  intro events
  induction events generalizing earlier with
  | nil => exact fun _ => reports_ok []
  | cons event events ih =>
    intro bound hbound
    rw [List.zipIdx_cons, List.flatMap_cons, resolveEvents_cons]
    dsimp only
    rw [List.take_left]
    cases hrule : registry.event? event.type with
    | none =>
      rw [Event.defects, hrule]
      exact reports_error _ _
    | some rule =>
      rw [Event.defects_of_rule hrule]
      dsimp only
      by_cases h : rule.parameter ∈ bound
      · rw [if_pos h, if_pos ((hbound _).mp h)]
        exact reports_error _ _
      · rw [if_neg h, if_neg (mt (hbound _).mpr h)]
        -- What the next events find taken: by properties, by earlier events, and by this one.
        have hrest : ∀ parameter, parameter ∈ rule.parameter :: bound ↔
            parameter ∈ names ++ registry.parameters (earlier ++ [event]) := by
          intro parameter
          simp [Registry.parameters, hbound, hrule, or_comm, or_left_comm]
        have hlater := ih _ hrest
        rw [List.length_append, List.append_assoc] at hlater
        exact (reports_mapM Action.resolve_reports _).bind fun methods _ => hlater.map

namespace Node

mutual

/-- **Resolving a tree reports its defects.** -/
theorem resolve_reports : ∀ (path : NodePath) (node : Node),
    Reports (resolve registry path node)
      ((node.placed path).flatMap fun (path, node) => node.ownDefects registry path)
  | path, ⟨component, props, events, children⟩ => by
    rw [placed, List.flatMap_cons, resolve]
    dsimp only [ownDefects]
    rw [List.append_assoc]
    cases hc : registry.component? component with
    | none => exact reports_error _ _
    | some construct =>
      have hnames : ∀ parameter, parameter ∈ props.names ↔
          parameter ∈ props.names ++ registry.parameters [] := by
        simp [Registry.parameters]
      refine (resolveEvents_reports props.names [] hnames).bind fun callbacks _ => ?_
      exact (resolveAll_reports path 0 children).map

theorem resolveAll_reports : ∀ (path : NodePath) (index : Nat) (children : List Node),
    Reports (resolveAll registry path index children)
      ((placedAll path index children).flatMap fun (path, node) =>
        node.ownDefects registry path)
  | _, _, [] => reports_ok []
  | path, index, node :: rest => by
    rw [placedAll, List.flatMap_append, resolveAll]
    exact (resolve_reports _ node).bind fun call _ =>
      (resolveAll_reports path (index + 1) rest).map

end

end Node

/-- All actions of a node without defects invoke methods. -/
theorem Node.ownDefects_eq_nil {node : Node} (h : node.ownDefects registry path = []) :
    ∀ event ∈ node.events, ∀ action ∈ event.actions, action.kind = .invoke := by
  intro event hevent action haction
  rw [ownDefects, List.append_eq_nil_iff] at h
  obtain ⟨index, hindex⟩ := List.mem_iff_getElem?.mp hevent
  -- The event at its index, among the defects of its node.
  have he : event.defects registry path
      (node.props.names ++ registry.parameters (node.events.take index)) = [] :=
    List.flatMap_eq_nil_iff.mp h.2 (event, index) (List.mk_mem_zipIdx_iff_getElem?.mpr hindex)
  rw [Event.defects] at he
  split at he
  · cases he
  · split at he
    · cases he
    · have ha := List.flatMap_eq_nil_iff.mp he action haction
      rw [Action.defects] at ha
      split at ha
      · assumption
      · cases ha

theorem Page.view_reports (page : Page) (registry : Registry) (settings : Settings) :
    Reports (page.view registry settings) (page.root.defects registry) :=
  (Node.resolve_reports (.ofRoot page.root) page.root).map

/-- **A view reports the first defect of its component tree.**  There is a
source text exactly if nothing in the tree is defective; otherwise the first
defect in pre-order is the failure.  The paths that defects carry are written
like the places at which their nodes stand. -/
theorem Page.view_first_defect (page : Page) (registry : Registry) (settings : Settings) :
    ((∃ text, page.view registry settings = .ok text) ↔ page.root.defects registry = []) ∧
    (∀ failure, page.view registry settings = .error failure ↔
      (page.root.defects registry).head? = some failure) ∧
    ∀ entry ∈ page.root.placed (.ofRoot page.root),
      Node.StandsAt page.root entry.1.text entry.2 :=
  have h := page.view_reports registry settings
  ⟨h.ok_iff, h.error_iff, Node.placed_standsAt .root⟩

/-- A page with two defects: an event and, further on, a component that the
built-in vocabulary lacks. -/
def defectivePage : Page where
  root := ({ component := "Column" } : Node)
    |>.withChild (({ component := "Text" } : Node).withEvent ⟨"onLongClick", []⟩)
    |>.withChild { component := "Image" }

/-- The event is reported, at the first child of the root. -/
theorem defectivePage_first_defect :
    defectivePage.root.defects .compose
      = [.unsupportedEvent "onLongClick" ⟨"Column", [(0, "Text")]⟩,
        .unknownComponent "Image" ⟨"Column", [(1, "Image")]⟩] ∧
    defectivePage.view .compose {}
      = .error (.unsupportedEvent "onLongClick" ⟨"Column", [(0, "Text")]⟩) ∧
    (NodePath.mk "Column" [(0, "Text")]).text = "Column/children[0]:Text" := by
  have hdefects : defectivePage.root.defects .compose
      = [.unsupportedEvent "onLongClick" ⟨"Column", [(0, "Text")]⟩,
        .unknownComponent "Image" ⟨"Column", [(1, "Image")]⟩] := by decide +kernel
  obtain ⟨_, herror, _⟩ := Page.view_first_defect defectivePage .compose {}
  exact ⟨hdefects, (herror _).mpr (by rw [hdefects]; rfl), by decide +kernel⟩

end Pagewright
