/-
Resolving a tree again, with more entries or at another place.

Two runs over the same tree compare step by step, for as long as the first one
finds what it looks for:

* `Node.resolve_keeps` — with a larger registry, at any path, the second run
  yields what the first one does, unless that one failed in a way that is
  excused: a missing entry is, and elsewhere every failure is, since failures
  tell the place;
* `Page.view_of_extends` — so a larger vocabulary changes no view;
* `Node.resolves_of_ok` — and what a node becomes does not depend on where it
  stands.
-/
import Pagewright.Proofs.View.Structure

namespace Pagewright

variable {α β : Type} {registry larger : Registry} {path path' : NodePath}
  {excused : Failure → Prop}

/-! ### Larger registries -/

/-- A new name does not take the place of another one. -/
theorem OrderedMap.find?_insert_of_none {map : OrderedMap α} {name other : String} {value : α}
    (h : map.find? name = none) (hother : map.find? other = some value) (new : α) :
    (map.insert name new).find? other = some value := by
  have hne : other ≠ name := by
    rintro rfl
    rw [h] at hother
    cases hother
  rw [find?_insert, if_neg (by simpa using hne)]
  exact hother

namespace Registry

/-- A registry has all entries of another one, for the same names. -/
structure Extends (larger registry : Registry) : Prop where
  component : ∀ name construct, registry.component? name = some construct →
    larger.component? name = some construct
  event : ∀ name rule, registry.event? name = some rule → larger.event? name = some rule

theorem Extends.refl (registry : Registry) : registry.Extends registry :=
  ⟨fun _ _ h => h, fun _ _ h => h⟩

theorem Extends.trans {largest : Registry} (h : largest.Extends larger)
    (h' : larger.Extends registry) : largest.Extends registry :=
  ⟨fun name construct hname => h.component name construct (h'.component name construct hname),
    fun name rule hname => h.event name rule (h'.event name rule hname)⟩

/-- A component that has no entry yet can be given one. -/
theorem extends_withComponent {name : String} (h : registry.component? name = none)
    (target : String) : (registry.withComponent name target).Extends registry :=
  ⟨fun _ _ hother => OrderedMap.find?_insert_of_none h hother _, fun _ _ hother => hother⟩

/-- An event that has no entry yet can be given one. -/
theorem extends_withEvent {name : String} (h : registry.event? name = none)
    (parameter : String) : (registry.withEvent name parameter).Extends registry :=
  ⟨fun _ _ hother => hother, fun _ _ hother => OrderedMap.find?_insert_of_none h hother _⟩

end Registry

/-! ### Two runs -/

/-- A second computation yields what the first one does, unless that one
failed in a way that is excused. -/
def Keeps (excused : Failure → Prop) (first second : Except Failure α) : Prop :=
  second = first ∨ ∃ failure, first = .error failure ∧ excused failure

namespace Keeps

theorem refl (result : Except Failure α) : Keeps excused result result :=
  .inl rfl

/-- What comes next has to compare only where both runs have gone the same
way. -/
theorem bind {first second : Except Failure α} {next next' : α → Except Failure β}
    (h : Keeps excused first second) (hnext : ∀ value, Keeps excused (next value) (next' value)) :
    Keeps excused (first >>= next) (second >>= next') := by
  rcases h with rfl | ⟨failure, rfl, hexcused⟩
  · cases second with
    | ok value => exact hnext value
    | error failure => exact refl _
  · exact .inr ⟨failure, rfl, hexcused⟩

theorem mapM {f g : α → Except Failure β} (h : ∀ a, Keeps excused (f a) (g a)) :
    ∀ entries : List α, Keeps excused (entries.mapM f) (entries.mapM g)
  | [] => refl _
  | a :: rest => by
    rw [List.mapM_cons, List.mapM_cons]
    exact (h a).bind fun b => (mapM h rest).bind fun results => refl _

theorem eq {first second : Except Failure α} (h : Keeps excused first second)
    (hfirst : ∀ failure, first = .error failure → ¬excused failure) : second = first := by
  rcases h with h | ⟨failure, hfailure, hexcused⟩
  · exact h
  · exact absurd hexcused (hfirst failure hfailure)

end Keeps

/-- Whether a failure is about an entry that a registry lacks. -/
def Failure.IsMissingEntry : Failure → Prop
  | .unknownComponent _ _ | .unsupportedEvent _ _ => True
  | _ => False

/-- The second run over some events may find more entries, and look for them
elsewhere. -/
theorem resolveEvents_keeps (hextends : larger.Extends registry)
    (hmissing : ∀ failure : Failure, failure.IsMissingEntry → excused failure)
    (hpath : path' = path ∨ ∀ failure, excused failure) :
    ∀ (events : List Event) (bound : List String), Keeps excused
      (resolveEvents registry path bound events) (resolveEvents larger path' bound events)
  | [], bound => .refl _
  | event :: events, bound => by
    rw [resolveEvents_cons, resolveEvents_cons]
    cases hrule : registry.event? event.type with
    | none => exact .inr ⟨_, rfl, hmissing _ trivial⟩
    | some rule =>
      rw [hextends.event _ _ hrule]
      dsimp only
      have hlater := resolveEvents_keeps hextends hmissing hpath events (rule.parameter :: bound)
      rcases hpath with rfl | hall
      · split
        · exact .refl _
        · exact (Keeps.refl _).bind fun methods => hlater.bind fun arguments => .refl _
      · split
        · exact .inr ⟨_, rfl, hall _⟩
        · have hactions : ∀ action : Action,
              Keeps excused (action.resolve path) (action.resolve path') := by
            intro action
            rw [Action.resolve, Action.resolve]
            cases action.kind with
            | invoke => exact .refl _
            | other kind => exact .inr ⟨_, rfl, hall _⟩
          exact (Keeps.mapM hactions event.actions).bind fun methods =>
            hlater.bind fun arguments => .refl _

namespace Node

mutual

/-- The second run over a tree yields the calls that the first one does. -/
theorem resolve_keeps (hextends : larger.Extends registry)
    (hmissing : ∀ failure : Failure, failure.IsMissingEntry → excused failure) :
    ∀ {path path' : NodePath}, (path' = path ∨ ∀ failure, excused failure) →
      ∀ node : Node, Keeps excused (resolve registry path node) (resolve larger path' node)
  | path, path', hpath, ⟨component, props, events, children⟩ => by
    rw [resolve, resolve]
    cases hconstruct : registry.component? component with
    | none => exact .inr ⟨_, rfl, hmissing _ trivial⟩
    | some construct =>
      rw [hextends.component _ _ hconstruct]
      refine (resolveEvents_keeps hextends hmissing hpath events props.names).bind
        fun callbacks => ?_
      exact (resolveAll_keeps hextends hmissing hpath 0 children).bind fun calls => .refl _

theorem resolveAll_keeps (hextends : larger.Extends registry)
    (hmissing : ∀ failure : Failure, failure.IsMissingEntry → excused failure) :
    ∀ {path path' : NodePath}, (path' = path ∨ ∀ failure, excused failure) →
      ∀ (index : Nat) (children : List Node), Keeps excused
        (resolveAll registry path index children) (resolveAll larger path' index children)
  | _, _, _, _, [] => .refl _
  | path, path', hpath, index, node :: rest => by
    rw [resolveAll, resolveAll]
    have hchild : path'.child index node = path.child index node ∨ ∀ failure, excused failure :=
      hpath.imp_left fun h => by rw [h]
    refine (resolve_keeps hextends hmissing hchild node).bind fun call => ?_
    exact (resolveAll_keeps hextends hmissing hpath (index + 1) rest).bind fun calls => .refl _

end

end Node

/-! ### With a larger registry -/

/-- **A larger vocabulary changes no view.**  Whatever a registry makes of a
page, be it a source text or a failure, every registry that extends it makes
the same of it, unless some component or event had no entry. -/
theorem Page.view_of_extends (h : larger.Extends registry) (page : Page) (settings : Settings)
    (hcomponent : ∀ name path, page.view registry settings ≠ .error (.unknownComponent name path))
    (hevent : ∀ event path, page.view registry settings ≠ .error (.unsupportedEvent event path)) :
    page.view larger settings = page.view registry settings := by
  have hview : Keeps Failure.IsMissingEntry (page.view registry settings)
      (page.view larger settings) :=
    (Node.resolve_keeps h (fun _ hmissing => hmissing) (.inl rfl) page.root).bind
      fun _ => .refl _
  refine hview.eq fun failure hfailure hmissing => ?_
  cases failure with
  | unknownComponent name path => exact hcomponent name path hfailure
  | unsupportedEvent event path => exact hevent event path hfailure
  | _ => exact hmissing

/-- A page that binds an argument twice before it shows an image, which is not
in the built-in vocabulary. -/
def galleryPage : Page where
  name := "gallery"
  root := ({ component := "Column" } : Node)
    |>.withChild ((({ component := "Button" } : Node).withProp "onClick" "page.open").withEvent
      ⟨"onClick", [⟨.invoke, "open"⟩]⟩)
    |>.withChild { component := "Image" }

/-- The built-in vocabulary with images and long clicks. -/
def galleryRegistry : Registry :=
  Registry.compose.withComponent "Image" "androidx.compose.foundation.Image"
    |>.withEvent "onLongClick" "onLongClick"

/-- Images do not change what is wrong with the gallery. -/
theorem galleryPage_view_of_extends :
    galleryRegistry.Extends .compose ∧
    galleryPage.view .compose {}
      = .error (.duplicateArgument "onClick" ⟨"Column", [(0, "Button")]⟩) ∧
    galleryPage.view galleryRegistry {}
      = .error (.duplicateArgument "onClick" ⟨"Column", [(0, "Button")]⟩) := by
  have hextends : galleryRegistry.Extends .compose :=
    (Registry.extends_withEvent (by decide +kernel) _).trans
      (Registry.extends_withComponent (by decide +kernel) _)
  have hdefects : (galleryPage.root.defects .compose).head?
      = some (.duplicateArgument "onClick" ⟨"Column", [(0, "Button")]⟩) := by
    decide +kernel
  have hview := ((galleryPage.view_reports .compose {}).error_iff _).mpr hdefects
  refine ⟨hextends, hview, ?_⟩
  rw [← hview]
  refine Page.view_of_extends hextends galleryPage {} ?_ ?_
  · rw [hview]
    exact fun _ _ h => by cases h
  · rw [hview]
    exact fun _ _ h => by cases h

/-! ### At another place -/

instance : Inhabited Call :=
  ⟨⟨default, [], []⟩⟩

namespace Node

/-- The call that a node becomes, if everything in it can be generated. -/
def call (registry : Registry) (node : Node) : Call :=
  match node.resolve registry (.ofRoot node) with
  | .ok call => call
  | .error _ => default

/-- The lines of the call that a node becomes. -/
def lines (registry : Registry) (binding : String) (level : Nat) (node : Node) : String :=
  (node.call registry).block binding level

/-- A node becomes its call, wherever it stands. -/
def Resolves (registry : Registry) (node : Node) : Prop :=
  ∀ path, node.resolve registry path = .ok (node.call registry)

/-- What becomes of a node at one place becomes of it everywhere. -/
theorem resolves_of_ok {node : Node} {call : Call} (h : node.resolve registry path = .ok call) :
    node.Resolves registry ∧ node.call registry = call := by
  have hall : ∀ path', node.resolve registry path' = .ok call := by
    intro path'
    have hkeeps : Keeps (fun _ => True) (node.resolve registry path)
        (node.resolve registry path') :=
      resolve_keeps (.refl registry) (fun _ _ => trivial) (.inr fun _ => trivial) node
    rcases hkeeps with hsame | ⟨failure, hfailure, -⟩
    · rw [hsame, h]
    · rw [h] at hfailure
      cases hfailure
  have hcall : node.call registry = call := by
    rw [Node.call, hall]
  exact ⟨fun path' => by rw [hall path', hcall], hcall⟩

/-- The children of a node become their calls, one by one. -/
theorem resolveAll_eq_ok_iff {children : List Node} :
    ∀ {index : Nat} {calls : List Call}, resolveAll registry path index children = .ok calls ↔
      (∀ child ∈ children, child.Resolves registry) ∧ calls = children.map (call registry) := by
  induction children with
  | nil =>
    intro index calls
    exact ⟨fun h => ⟨fun _ hmem => absurd hmem List.not_mem_nil, (Except.ok.inj h).symm⟩,
      fun h => congrArg Except.ok h.2.symm⟩
  | cons node rest ih =>
    intro index calls
    rw [resolveAll, List.forall_mem_cons, List.map_cons]
    constructor
    · intro h
      obtain ⟨call, hcall, h⟩ := bind_eq_ok h
      obtain ⟨later, hlater, h⟩ := bind_eq_ok h
      obtain rfl : call :: later = calls := Except.ok.inj h
      obtain ⟨hnode, rfl⟩ := resolves_of_ok hcall
      obtain ⟨hrest, rfl⟩ := ih.mp hlater
      exact ⟨⟨hnode, hrest⟩, rfl⟩
    · rintro ⟨⟨hnode, hrest⟩, rfl⟩
      rw [hnode, ih.mpr ⟨hrest, rfl⟩]
      rfl

variable {root : Node}

theorem Resolves.of_mem_children (h : root.Resolves registry) :
    ∀ child ∈ root.children, child.Resolves registry := by
  obtain ⟨component, props, events, children⟩ := root
  obtain ⟨_, _, _, _, _, hcalls, _⟩ := resolve_ok (h (.ofRoot ⟨component, props, events, children⟩))
  exact (resolveAll_eq_ok_iff.mp hcalls).1

/-- The construct and the arguments of a node stay the same whatever its
children are. -/
theorem Resolves.withChildren (h : root.Resolves registry) :
    ∃ construct arguments,
      root.call registry = ⟨construct, arguments, root.children.map (call registry)⟩ ∧
      ∀ children : List Node, (∀ child ∈ children, child.Resolves registry) →
        ({ root with children := children } : Node).Resolves registry ∧
        ({ root with children := children } : Node).call registry
          = ⟨construct, arguments, children.map (call registry)⟩ := by
  have hchildren := h.of_mem_children
  obtain ⟨component, props, events, children⟩ := root
  obtain ⟨construct, callbacks, calls, hconstruct, hcallbacks, -, -⟩ :=
    resolve_ok (h (.ofRoot ⟨component, props, events, children⟩))
  have hresolves : ∀ children' : List Node, (∀ child ∈ children', child.Resolves registry) →
      Resolves registry ⟨component, props, events, children'⟩ ∧
      call registry ⟨component, props, events, children'⟩
        = ⟨construct, propArguments props ++ callbacks, children'.map (call registry)⟩ := by
    intro children' hchildren'
    have hresolve : resolve registry (.ofRoot ⟨component, props, events, children⟩)
        ⟨component, props, events, children'⟩
          = .ok ⟨construct, propArguments props ++ callbacks, children'.map (call registry)⟩ := by
      rw [resolve, hconstruct]
      dsimp only
      rw [hcallbacks, resolveAll_eq_ok_iff.mpr ⟨hchildren', rfl⟩]
      rfl
    exact resolves_of_ok hresolve
  exact ⟨construct, _, (hresolves children hchildren).2, hresolves⟩

end Node

end Pagewright
