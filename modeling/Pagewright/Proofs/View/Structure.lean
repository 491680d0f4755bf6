/-
The text of a view determines the structure of the tree that it shows.

From the block of a tree alone, given the binding and the level that it starts
at, one can read off the tree again, every node with the name of its construct
and with the actions of its events.  All that is needed for it is that names
are words, and that nothing that is put into the text holds a line feed.

* `Node.resolve_shows` — the calls of a tree have its structure;
* `Node.structure_of_block` — the structure is decoded from the block.
-/
import Mathlib.Data.List.Forall2
import Pagewright.Proofs.Defects
import Pagewright.Proofs.Occurrences
import Pagewright.Proofs.View.Calls

namespace Pagewright

open Decoder

variable {registry : Registry} {binding : String} {path : NodePath}

/-- The name of a component at call sites. -/
def Registry.simpleName (registry : Registry) (component : String) : String :=
  match registry.component? component with
  | some construct => construct.simpleName
  | none => ""

/-- The actions of each event that has any. -/
def callbacksOf (events : List Event) : List (List String) :=
  (events.map fun event => event.actions.map Action.method).filter fun methods => !methods.isEmpty

namespace Node

mutual

/-- The structure of a tree: the name of every node, and the actions of each of
its events that have any. -/
def shape (registry : Registry) : Node → Shape
  | ⟨component, _, events, children⟩ =>
    ⟨registry.simpleName component, callbacksOf events, shapeAll registry children⟩

/-- The structure of some trees. -/
def shapeAll (registry : Registry) : List Node → List Shape
  | [] => []
  | node :: rest => node.shape registry :: shapeAll registry rest

end

/-- The construct of a node has a word as its name, and nothing that is put
into its call holds a line feed. -/
structure Plain (registry : Registry) (node : Node) : Prop where
  name : ∀ construct ∈ registry.component? node.component, IsWord construct.simpleName
  props : ∀ prop ∈ node.props.entries, '\n' ∉ prop.1.toList ∧ '\n' ∉ prop.2.toList
  parameters : ∀ event ∈ node.events, ∀ rule ∈ registry.event? event.type,
    '\n' ∉ rule.parameter.toList
  methods : ∀ event ∈ node.events, ∀ action ∈ event.actions, '\n' ∉ action.method.toList

instance (registry : Registry) (node : Node) : Decidable (node.Plain registry) :=
  decidable_of_iff (_ ∧ _ ∧ _ ∧ _)
    ⟨fun ⟨hname, hprops, hparameters, hmethods⟩ => ⟨hname, hprops, hparameters, hmethods⟩,
      fun h => ⟨h.name, h.props, h.parameters, h.methods⟩⟩

/-- All nodes of a tree are plain. -/
def Legible (registry : Registry) (root : Node) : Prop :=
  ∀ node : Node, node.IsIn root → node.Plain registry

theorem legible_of_placed {root : Node} (path : NodePath)
    (h : ∀ entry ∈ root.placed path, entry.2.Plain registry) : root.Legible registry := by
  intro node hnode
  obtain ⟨place, hplace⟩ := exists_placed hnode path
  exact h (place, node) hplace

end Node

/-! ### Arguments -/

theorem Action.method_of_resolve {action : Action} {method : String}
    (h : action.resolve path = .ok method) : method = action.method := by
  rw [Action.resolve] at h
  cases hkind : action.kind with
  | invoke =>
    rw [hkind] at h
    exact (Except.ok.inj h).symm
  | other kind =>
    rw [hkind] at h
    cases h

theorem methods_of_mapM_resolve {actions : List Action} {methods : List String}
    (h : actions.mapM (Action.resolve path) = .ok methods) :
    methods = actions.map Action.method := by
  have hmethods := (forall₂_of_mapM_ok h).imp fun _ _ hmethod =>
    (Action.method_of_resolve hmethod).symm
  rw [← List.forall₂_map_left_iff, List.forall₂_eq_eq_eq] at hmethods
  exact hmethods.symm

theorem propArguments_callbacks (props : OrderedMap String) :
    (propArguments props).flatMap Argument.callbacks = [] := by
  rw [propArguments, List.flatMap_map]
  exact List.flatMap_eq_nil_iff.mpr fun _ _ => rfl

theorem propArguments_legible (hbinding : '\n' ∉ binding.toList) {props : OrderedMap String}
    (h : ∀ prop ∈ props.entries, '\n' ∉ prop.1.toList ∧ '\n' ∉ prop.2.toList) :
    ∀ argument ∈ propArguments props, argument.Legible binding := by
  rw [propArguments, List.forall_mem_map]
  intro prop hprop
  refine ⟨(h prop hprop).1, fun hmem => ?_⟩
  rcases mem_bindPageScope hmem with hmem | hmem | hmem
  · exact (h prop hprop).2 hmem
  · exact hbinding hmem
  · exact absurd hmem (by decide)

theorem callbacks_callback (parameter : String) (methods : List String) :
    (Argument.mk parameter (.callback methods)).callbacks
      = [methods].filter fun methods => !methods.isEmpty := by
  cases methods <;> rfl

/-- An event that is resolved becomes one argument, with all its actions. -/
theorem resolveEvents_cons_ok {event : Event} {events : List Event} {bound : List String}
    {arguments : List Argument}
    (h : resolveEvents registry path bound (event :: events) = .ok arguments) :
    ∃ rule later, registry.event? event.type = some rule ∧
      resolveEvents registry path (rule.parameter :: bound) events = .ok later ∧
      arguments = ⟨rule.parameter, .callback (event.actions.map Action.method)⟩ :: later := by
  rw [resolveEvents_cons] at h
  split at h
  · cases h
  · next rule hrule =>
    split at h
    · cases h
    · obtain ⟨methods, hmethods, h⟩ := bind_eq_ok h
      obtain ⟨later, hlater, h⟩ := bind_eq_ok h
      cases h
      exact ⟨rule, later, hrule, hlater, by rw [methods_of_mapM_resolve hmethods]⟩

/-- The callbacks of events are their actions. -/
theorem resolveEvents_callbacks {events : List Event} :
    ∀ {bound : List String} {arguments : List Argument},
      resolveEvents registry path bound events = .ok arguments →
      arguments.flatMap Argument.callbacks = callbacksOf events := by
  induction events with
  | nil =>
    intro bound arguments h
    cases h
    rfl
  | cons event events ih =>
    intro bound arguments h
    obtain ⟨rule, later, -, hlater, rfl⟩ := resolveEvents_cons_ok h
    rw [List.flatMap_cons, ih hlater, callbacks_callback, callbacksOf, callbacksOf, List.map_cons,
      ← List.filter_append, List.singleton_append]

theorem resolveEvents_legible {events : List Event}
    (hparameters : ∀ event ∈ events, ∀ rule ∈ registry.event? event.type,
      '\n' ∉ rule.parameter.toList)
    (hmethods : ∀ event ∈ events, ∀ action ∈ event.actions, '\n' ∉ action.method.toList) :
    ∀ {bound : List String} {arguments : List Argument},
      resolveEvents registry path bound events = .ok arguments →
      ∀ argument ∈ arguments, argument.Legible binding := by
  induction events with
  | nil =>
    intro bound arguments h
    cases h
    exact fun _ hmem => absurd hmem List.not_mem_nil
  | cons event events ih =>
    intro bound arguments h
    obtain ⟨rule, later, hrule, hlater, rfl⟩ := resolveEvents_cons_ok h
    refine List.forall_mem_cons.mpr ⟨⟨hparameters event List.mem_cons_self rule hrule, ?_⟩, ?_⟩
    · exact List.forall_mem_map.mpr (hmethods event List.mem_cons_self)
    · exact ih (fun event hmem => hparameters event (List.mem_cons_of_mem _ hmem))
        (fun event hmem => hmethods event (List.mem_cons_of_mem _ hmem)) hlater

/-! ### Trees -/

namespace Node

/-- A node that is resolved becomes the call of its construct. -/
theorem resolve_ok {component : String} {props : OrderedMap String} {events : List Event}
    {children : List Node} {call : Call}
    (h : resolve registry path ⟨component, props, events, children⟩ = .ok call) :
    ∃ construct callbacks calls, registry.component? component = some construct ∧
      resolveEvents registry path props.names events = .ok callbacks ∧
      resolveAll registry path 0 children = .ok calls ∧
      call = ⟨construct, propArguments props ++ callbacks, calls⟩ := by
  rw [resolve] at h
  split at h
  · next construct hconstruct =>
    obtain ⟨_, hsame, h⟩ := bind_eq_ok h
    obtain rfl := Except.ok.inj hsame
    obtain ⟨callbacks, hcallbacks, h⟩ := bind_eq_ok h
    obtain ⟨calls, hcalls, h⟩ := bind_eq_ok h
    exact ⟨construct, callbacks, calls, hconstruct, hcallbacks, hcalls, (Except.ok.inj h).symm⟩
  · cases h

/-- A call that shows a node: its structure is that of the node, and it says so
wherever it stands. -/
structure Shows (registry : Registry) (binding : String) (call : Call) (node : Node) : Prop where
  legible : call.Legible binding
  shape : call.shape = node.shape registry
  headings : ∀ (base : Nat) (path : NodePath), call.headings (base + path.steps.length)
    = (node.placed path).map fun (place, inside) =>
      (4 * (base + place.steps.length), registry.simpleName inside.component)

section Children

variable {calls : List Call} {children : List Node}

theorem legible_of_shows (h : List.Forall₂ (Shows registry binding) calls children) :
    ∀ call ∈ calls, call.Legible binding := by
  induction h with
  | nil => exact fun _ hmem => absurd hmem List.not_mem_nil
  | cons hcall _ ih => exact List.forall_mem_cons.mpr ⟨hcall.legible, ih⟩

theorem shapeAll_eq (h : List.Forall₂ (Shows registry binding) calls children) :
    Call.shapeAll calls = shapeAll registry children := by
  induction h with
  | nil => rfl
  | cons hcall _ ih => rw [Call.shapeAll, shapeAll, hcall.shape, ih]

theorem headingsAll_eq (h : List.Forall₂ (Shows registry binding) calls children) (base : Nat)
    (path : NodePath) : ∀ index,
    Call.headingsAll (base + path.steps.length + 1) calls
      = (placedAll path index children).map fun (place, inside) =>
        (4 * (base + place.steps.length), registry.simpleName inside.component) := by
  induction h with
  | nil => exact fun _ => rfl
  | @cons call child calls children hcall _ ih =>
    intro index
    have hheadings := hcall.headings base (path.child index child)
    rw [length_steps_child, ← Nat.add_assoc] at hheadings
    rw [Call.headingsAll, placedAll, List.map_append, hheadings, ih (index + 1)]

end Children

mutual

/-- The calls of a tree show it. -/
theorem resolve_shows (hbinding : '\n' ∉ binding.toList) :
    ∀ {path : NodePath} {node : Node} {call : Call}, node.resolve registry path = .ok call →
      node.Legible registry → Shows registry binding call node
  | path, ⟨component, props, events, children⟩, call, hcall, h => by
    obtain ⟨construct, callbacks, calls, hconstruct, hcallbacks, hcalls, rfl⟩ := resolve_ok hcall
    have hchildren := resolveAll_shows hbinding hcalls fun child hchild node hnode =>
      h node (.child hchild hnode)
    have hname : registry.simpleName component = construct.simpleName := by
      rw [Registry.simpleName, hconstruct]
    constructor
    · have hcallbacks' : ∀ argument ∈ callbacks, argument.Legible binding :=
        resolveEvents_legible (h _ .root).parameters (h _ .root).methods hcallbacks
      exact .mk ((h _ .root).name construct hconstruct)
        (List.forall_mem_append.mpr ⟨propArguments_legible hbinding (h _ .root).props, hcallbacks'⟩)
        (legible_of_shows hchildren)
    · rw [Call.shape, shape, hname, List.flatMap_append, propArguments_callbacks, List.nil_append,
        resolveEvents_callbacks hcallbacks, shapeAll_eq hchildren]
    · intro base path'
      rw [Call.headings, placed, List.map_cons, headingsAll_eq hchildren base path' 0, ← hname]

theorem resolveAll_shows (hbinding : '\n' ∉ binding.toList) :
    ∀ {path : NodePath} {index : Nat} {children : List Node} {calls : List Call},
      resolveAll registry path index children = .ok calls →
      (∀ child ∈ children, child.Legible registry) →
      List.Forall₂ (Shows registry binding) calls children
  | path, index, [], calls, hcalls, _ => by
    obtain rfl : [] = calls := Except.ok.inj hcalls
    exact .nil
  | path, index, node :: rest, calls, hcalls, h => by
    rw [resolveAll] at hcalls
    obtain ⟨call, hcall, hcalls⟩ := bind_eq_ok hcalls
    obtain ⟨later, hlater, hcalls⟩ := bind_eq_ok hcalls
    obtain rfl : call :: later = calls := Except.ok.inj hcalls
    exact .cons (resolve_shows hbinding hcall (h node List.mem_cons_self))
      (resolveAll_shows hbinding hlater fun child hmem => h child (List.mem_cons_of_mem _ hmem))

end

/-- **The text of a view determines the structure of the tree that it shows.**
From the block of a tree, the binding and the level it starts at, `decodeBlock`
recovers every node in its place, with the name of its construct and the
actions of its events.  The lines that open a construct come in the order of
the nodes, one for each, and stand four columns further in at every level. -/
theorem structure_of_block {node : Node} {call : Call}
    (hcall : node.resolve registry path = .ok call) (hbinding : '\n' ∉ binding.toList)
    (h : node.Legible registry) (level : Nat) :
    decodeBlock binding level (call.block binding level) = some (node.shape registry) ∧
    constructLines binding level (call.block binding level)
      = (node.placed (.ofRoot node)).map (fun (place, inside) =>
        (4 * (level + place.steps.length), registry.simpleName inside.component)) ∧
    (constructLines binding level (call.block binding level)).length = node.count ∧
    ((constructLines binding level (call.block binding level)).map Prod.fst).max?
      = some (4 * (level + node.depth - 1)) := by
  have hshows := resolve_shows hbinding hcall h
  obtain ⟨hshape, hlines⟩ := Call.decode_block hshows.legible hbinding level
  have hheadings : call.headings level = (node.placed (.ofRoot node)).map fun (place, inside) =>
      (4 * (level + place.steps.length), registry.simpleName inside.component) :=
    hshows.headings level (.ofRoot node)
  rw [hshows.shape] at hshape
  rw [hlines, hheadings]
  refine ⟨hshape, rfl, by rw [List.length_map, length_placed], ?_⟩
  -- The deepest line is that of a deepest node.
  rw [List.map_map, List.max?_eq_some_iff]
  have hroot : (NodePath.ofRoot node).steps.length = 0 := rfl
  constructor
  · obtain ⟨entry, hmem, hentry⟩ := exists_deepest (.ofRoot node) node
    refine List.mem_map.mpr ⟨entry, hmem, ?_⟩
    dsimp only [Function.comp_apply]
    omega
  · rw [List.forall_mem_map]
    intro entry hmem
    have hlt := length_steps_lt entry hmem
    dsimp only [Function.comp_apply]
    omega

end Node

/-- A tree with callbacks in the middle of a header, and with properties that
look like the end of a header and like another call. -/
def trickyTree : Node :=
  (({ component := "Column" } : Node).withProp "tag" "\") \x7b\"")
    |>.withChild (((({ component := "Button" } : Node).withProp "label" "Text(a = \x7b").withEvent
      ⟨"onClick", [⟨.invoke, "save"⟩, ⟨.invoke, "close"⟩]⟩).withEvent ⟨"onLongClick", []⟩)
    |>.withChild (({ component := "Column" } : Node).withChild
      (({ component := "Text" } : Node).withProp "text" "page.title"))

/-- The vocabulary that the tree needs. -/
def trickyRegistry : Registry :=
  Registry.compose.withEvent "onLongClick" "onLongClick"

/-- The tricky tree is decoded from its block. -/
theorem trickyTree_structure_of_block :
    ∃ call, trickyTree.resolve trickyRegistry (.ofRoot trickyTree) = .ok call ∧
      '\n' ∉ "viewModel".toList ∧ trickyTree.Legible trickyRegistry ∧
      decodeBlock "viewModel" 1 (call.block "viewModel" 1)
        = some ⟨"Column", [], [⟨"Button", [["save", "close"]], []⟩,
          ⟨"Column", [], [⟨"Text", [], []⟩]⟩]⟩ ∧
      constructLines "viewModel" 1 (call.block "viewModel" 1)
        = [(4, "Column"), (8, "Button"), (8, "Column"), (12, "Text")] := by
  have hbinding : '\n' ∉ "viewModel".toList := by decide
  have hlegible : trickyTree.Legible trickyRegistry :=
    Node.legible_of_placed (.ofRoot trickyTree) (by decide +kernel)
  have hok : (trickyTree.resolve trickyRegistry (.ofRoot trickyTree)).isOk = true := by
    decide +kernel
  cases h : trickyTree.resolve trickyRegistry (.ofRoot trickyTree) with
  | error failure =>
    rw [h] at hok
    cases hok
  | ok call =>
    obtain ⟨hshape, hlines, -⟩ := Node.structure_of_block h hbinding hlegible 1
    refine ⟨call, rfl, hbinding, hlegible, hshape.trans ?_, hlines.trans ?_⟩
    · rfl
    · decide +kernel

end Pagewright
