/-
Reading a page and writing it brings its document into a normal form.

Whatever document a page was read from, its kinds come from names, and what is
written for it is nested no deeper than readers go.  The second is not for
free, since more is written than has to be read: the state of the page, and a
list of actions for every event.  But a node always stands inside an odd
number of brackets, so where an event could be opened there is room for its
actions.

* `Node.yields` — trees that are read at an even depth are written in that depth;
* `Page.yields` — the pages that are read;
* `Page.read_normal` — a page that was read is read again from what is written.
-/
import Pagewright.Proofs.Json.Yielding
import Pagewright.Proofs.PageDocument

namespace Pagewright

open Json

variable {depth : Nat}

/-! ### Records without a tree -/

theorem Field.yields :
    Yields (record "Field" default (within (fun _ => slots) depth)) Field.Canonical := by
  have hempty : (default : Field).Canonical := ⟨"number", by decide +kernel⟩
  refine (Yields.record (P := fun _ => Field.Canonical) (fun _ => hempty) fun _ _ => ?_).imp
    fun field ⟨_, _, h⟩ => h
  refine List.forall_mem_cons.mpr ⟨?_, List.forall_mem_cons.mpr ⟨?_, ?_⟩⟩
  · exact keeps_required (yields_true _) fun _ _ _ h => h
  · exact keeps_required (yields_true _) fun kind _ _ _ => ⟨kind, rfl⟩
  · exact List.forall_mem_singleton.mpr (keeps_required (yields_true _) fun _ _ _ h => h)

theorem PageState.yields :
    Yields (record "PageInfo" default (within slots depth)) fun state =>
      ∀ field ∈ state.fields, field.Canonical := by
  refine (Yields.record (P := fun _ state => ∀ field ∈ state.fields, field.Canonical)
    (fun _ _ hmem => absurd hmem List.not_mem_nil) fun _ _ => ?_).imp fun state ⟨_, _, h⟩ => h
  refine List.forall_mem_cons.mpr ⟨?_, List.forall_mem_singleton.mpr ?_⟩
  · exact keeps_optionalField (Yields.list fun _ _ => Field.yields) fun _ _ ⟨_, _, h⟩ _ => h
  · exact keeps_optionalField (yields_true _) fun _ _ _ h => h

theorem PageState.nesting_toJson_le (state : PageState) : state.toJson.nesting ≤ 3 := by
  rw [toJson, Value.nesting_object_le, List.forall_mem_cons, List.forall_mem_singleton,
    Value.nesting_list_le, Value.nesting_list_le]
  exact ⟨fun _ _ => Nat.le_refl 1, fun _ _ => Nat.le_refl 1⟩

/-! ### Events -/

theorem Action.yields :
    Yields (record "Action" default (within (fun _ => slots) depth)) fun action =>
      0 < depth ∧ ∃ name, action.kind = .ofName name := by
  have hempty : ∃ name, (default : Action).kind = .ofName name :=
    ⟨ActionKind.invokeName, by decide +kernel⟩
  refine (Yields.record (P := fun _ action => ∃ name, action.kind = .ofName name)
    (fun _ => hempty) fun _ _ => ?_).imp fun action ⟨inner, hdepth, h⟩ => ⟨by omega, h⟩
  refine List.forall_mem_cons.mpr ⟨?_, List.forall_mem_singleton.mpr ?_⟩
  · exact keeps_required (yields_true _) fun kind _ _ _ => ⟨kind, rfl⟩
  · exact keeps_optionalField (yields_true _) fun _ _ _ h => h

/-- The actions of an event are written even where there are none. -/
theorem Event.nesting_toJson_le {event : Event} (h : ∀ action ∈ event.actions, 1 ≤ depth) :
    event.toJson.nesting ≤ depth + 2 := by
  rw [toJson, Value.nesting_object_le, List.forall_mem_cons, List.forall_mem_singleton,
    Value.nesting_list_le]
  exact ⟨Nat.zero_le _, h⟩

/-- An event needs room for one bracket to be read, and for a second one to be
written; at an even depth there is room for both or for none. -/
theorem Event.yields (half : Nat) :
    Yields (record "Event" default (within slots (2 * half))) fun event =>
      event.toJson.nesting ≤ 2 * half ∧ event.Canonical := by
  have hrecord : Yields (record "Event" default (within slots (2 * half))) fun event =>
      ∃ inner, 2 * half = inner + 1 ∧
        ∀ action ∈ event.actions, 2 ≤ inner ∧ ∃ name, action.kind = .ofName name := by
    refine Yields.record (fun _ _ hmem => absurd hmem List.not_mem_nil) fun inner _ => ?_
    refine List.forall_mem_cons.mpr ⟨?_, List.forall_mem_singleton.mpr ?_⟩
    · exact keeps_required (yields_true _) fun _ _ _ h => h
    · refine keeps_optionalField (Yields.list fun _ _ => Action.yields) ?_
      rintro actions event ⟨further, hfurther, h⟩ - action haction
      obtain ⟨hpos, hkind⟩ := h action haction
      exact ⟨by omega, hkind⟩
  refine hrecord.imp fun event ⟨inner, hdepth, h⟩ => ⟨?_, fun action haction =>
    (h action haction).2⟩
  obtain ⟨depth, hdepth'⟩ : ∃ depth, 2 * half = depth + 2 := ⟨2 * half - 2, by omega⟩
  rw [hdepth']
  refine Event.nesting_toJson_le fun action haction => ?_
  have hinner := (h action haction).1
  omega

/-! ### Trees -/

namespace Node

theorem nesting_entryUnless_le {isEmpty : Bool} {key : String} {value : Value}
    (h : value.nesting ≤ depth) :
    ∀ entry ∈ entryUnless isEmpty key value, entry.2.nesting ≤ depth := by
  cases isEmpty with
  | false => exact List.forall_mem_singleton.mpr h
  | true => exact fun _ hmem => absurd hmem List.not_mem_nil

theorem nesting_propsToJson_le (props : OrderedMap String) :
    (propsToJson props).nesting ≤ depth + 1 := by
  rw [propsToJson, Value.nesting_object_le, List.forall_mem_map]
  exact fun _ _ => Nat.zero_le depth

/-- The events and children of a node can be written at a depth, and their
kinds come from names. -/
structure Sound (depth : Nat) (node : Node) : Prop where
  events : ∀ event ∈ node.events, event.toJson.nesting ≤ depth ∧ event.Canonical
  children : ∀ child ∈ node.children, child.toJson.nesting ≤ depth ∧ child.Canonical

theorem sound_default : Sound depth default :=
  ⟨fun _ hmem => absurd hmem List.not_mem_nil, fun _ hmem => absurd hmem List.not_mem_nil⟩

/-- Events and children stand in two more brackets than their node. -/
theorem Sound.nesting_le {node : Node} (h : node.Sound depth) :
    node.toJson.nesting ≤ depth + 2 := by
  obtain ⟨component, props, events, children⟩ := node
  rw [toJson, allToJson_eq, Value.nesting_object_le]
  simp only [List.forall_mem_append, List.forall_mem_singleton]
  refine ⟨⟨⟨Nat.zero_le _, ?_⟩, ?_⟩, ?_⟩
  · exact nesting_entryUnless_le (nesting_propsToJson_le props)
  · refine nesting_entryUnless_le (Value.nesting_list_le.mpr fun event hevent => ?_)
    exact (h.events event hevent).1
  · refine nesting_entryUnless_le (Value.nesting_list_le.mpr fun child hchild => ?_)
    exact (h.children child hchild).1

theorem Sound.canonical {node : Node} (h : node.Sound depth) : node.Canonical := by
  intro inside hinside
  cases hinside with
  | root => exact fun event hevent => (h.events event hevent).2
  | child hchild hinside => exact (h.children _ hchild).2 inside hinside

/-- One level of a tree, of which the children are read in their turn. -/
theorem yields_succ {half : Nat} (h : Yields (reader (2 * half)) fun child =>
      child.toJson.nesting ≤ 2 * half ∧ child.Canonical) :
    Yields (reader (2 * (half + 1))) (Sound (2 * half)) := by
  rw [reader_eq]
  refine (Yields.record (P := fun _ => Sound (2 * half)) (fun _ => sound_default)
    fun inner hinner => ?_).imp fun node ⟨_, _, hnode⟩ => hnode
  -- Behind the bracket of the node and that of a list in it, the depth is even again.
  obtain rfl : inner = 2 * half + 1 := by omega
  refine List.forall_mem_cons.mpr ⟨?_, List.forall_mem_cons.mpr ⟨?_, List.forall_mem_cons.mpr
    ⟨?_, List.forall_mem_singleton.mpr ?_⟩⟩⟩
  · exact keeps_required (yields_true _) fun _ _ _ hnode => ⟨hnode.events, hnode.children⟩
  · exact keeps_optionalField (yields_true _) fun _ _ _ hnode => ⟨hnode.events, hnode.children⟩
  · refine keeps_optionalField (Yields.list (P := fun _ event =>
      event.toJson.nesting ≤ 2 * half ∧ event.Canonical) fun further hfurther => ?_) ?_
    · obtain rfl : further = 2 * half := (Nat.succ_inj.mp hfurther).symm
      exact Event.yields half
    · exact fun events node ⟨_, _, hevents⟩ hnode => ⟨hevents, hnode.children⟩
  · refine keeps_optionalField (Yields.list (P := fun _ child =>
      child.toJson.nesting ≤ 2 * half ∧ child.Canonical) fun further hfurther => ?_) ?_
    · obtain rfl : further = 2 * half := (Nat.succ_inj.mp hfurther).symm
      exact h
    · exact fun children node ⟨_, _, hchildren⟩ hnode => ⟨hnode.events, hchildren⟩

/-- The trees that are read where an even number of brackets may be opened can
be written there. -/
theorem yields (half : Nat) : Yields (reader (2 * half)) fun node =>
    node.toJson.nesting ≤ 2 * half ∧ node.Canonical := by
  induction half with
  | zero =>
    intro input node rest hread
    rw [reader_eq] at hread
    obtain ⟨inner, hinner, -⟩ := Yields.record (P := fun _ _ => True) (fun _ => trivial)
      (fun inner hinner => absurd hinner (Nat.succ_ne_zero inner).symm) input node rest hread
    exact absurd hinner (Nat.succ_ne_zero inner).symm
  | succ half ih => exact (yields_succ ih).imp fun node hnode => ⟨hnode.nesting_le, hnode.canonical⟩

end Node

/-! ### Pages -/

theorem Page.nesting_toJson_le {page : Page} (hdepth : 3 ≤ depth)
    (h : page.root.toJson.nesting ≤ depth) : page.toJson.nesting ≤ depth + 1 := by
  rw [toJson, Value.nesting_object_le, List.forall_mem_cons, List.forall_mem_cons,
    List.forall_mem_singleton]
  exact ⟨Nat.zero_le _, Nat.le_trans page.state.nesting_toJson_le hdepth, h⟩

/-- The pages that are read can be written, and their kinds come from names. -/
theorem Page.yields :
    Yields Page.reader fun page => page.toJson.nesting ≤ depthLimit ∧ page.Canonical := by
  have hrecord : Yields Page.reader fun page => ∃ inner, depthLimit = inner + 1 ∧
      ((∀ field ∈ page.state.fields, field.Canonical) ∧
        page.root.toJson.nesting ≤ 2 * 63 ∧ page.root.Canonical) := by
    refine Yields.record (fun _ => ⟨fun _ hmem => absurd hmem List.not_mem_nil, by decide,
      Node.Sound.canonical (Node.sound_default : Node.Sound 0 default)⟩) fun inner hinner => ?_
    obtain rfl : inner = 2 * 63 := (Nat.succ_inj.mp hinner).symm
    refine List.forall_mem_cons.mpr ⟨?_, List.forall_mem_cons.mpr ⟨?_, ?_⟩⟩
    · exact keeps_optionalField (yields_true _) fun _ _ _ h => h
    · exact keeps_optionalField PageState.yields fun _ _ hfields h => ⟨hfields, h.2⟩
    · exact List.forall_mem_singleton.mpr (keeps_required (Node.yields 63) fun _ _ hroot h =>
        ⟨h.1, hroot⟩)
  refine hrecord.imp fun page ⟨_, _, hfields, hnesting, hroot⟩ => ⟨?_, hfields, hroot⟩
  exact Page.nesting_toJson_le (by decide) hnesting

theorem Page.named_named (page : Page) (fallback : String) :
    (page.named fallback).named fallback = page.named fallback := by
  by_cases hempty : page.name.isEmpty
  · have hnamed : page.named fallback = { page with name := fallback } := if_pos hempty
    rw [hnamed, named]
    split
    · rfl
    · rfl
  · have hnamed : page.named fallback = page := if_neg hempty
    rw [hnamed, hnamed]

theorem Page.nesting_toJson_named (page : Page) (fallback : String) :
    (page.named fallback).toJson.nesting = page.toJson.nesting := by
  rw [named]
  split
  · rfl
  · rfl

theorem Page.Canonical.named {page : Page} (h : page.Canonical) (fallback : String) :
    (page.named fallback).Canonical := by
  rw [Page.named]
  split
  · exact ⟨h.fields, h.root⟩
  · exact h

/-- **Reading a page and writing it brings its document into a normal form.**
Whatever text a page was read from, what is written for it is nested no deeper
than readers go and is read as the very same page, so writing that page again
gives the same text. -/
theorem Page.read_normal {text fallback : String} {page : Page}
    (h : Page.read text fallback = .ok page) :
    page.toJson.nesting ≤ depthLimit ∧
    Page.read page.toJson.compact fallback = .ok page ∧
    (Page.read page.toJson.compact fallback).map (·.toJson.compact) = .ok page.toJson.compact := by
  obtain ⟨original, horiginal, hnamed⟩ := bind_eq_ok h
  obtain rfl : original.named fallback = page := Except.ok.inj hnamed
  obtain ⟨hnesting, hcanonical⟩ := Page.yields.document horiginal
  rw [← Page.nesting_toJson_named original fallback] at hnesting
  have hread := (Page.read_written (hcanonical.named fallback) fallback).1 hnesting
  rw [Page.named_named] at hread
  refine ⟨hnesting, hread, ?_⟩
  rw [hread]
  rfl

/-- A document without a name and without methods, with keys out of order, a
property that comes twice, an event without actions, and records that are
written as lists. -/
def looseDocument : String :=
  "\x7b\"componentTree\":\x7b\"props\":\x7b\"a\":\"1\",\"a\":\"\\u0032\"\x7d, "
    ++ "\"events\":[[\"tap\"]],\"componentName\":\"Text\"\x7d,"
    ++ "\"pageInfo\":\x7b\"fields\":[[\"on\",\"Boolean\",\"\"]]\x7d\x7d"

/-- The normal form of the loose document. -/
def normalDocument : String :=
  "\x7b\"name\":\"Draft\",\"pageInfo\":\x7b\"fields\":["
    ++ "\x7b\"name\":\"on\",\"kind\":\"boolean\",\"initialValue\":\"\"\x7d],\"methods\":[]\x7d,"
    ++ "\"componentTree\":\x7b\"componentName\":\"Text\",\"props\":\x7b\"a\":\"2\"\x7d,"
    ++ "\"events\":[\x7b\"type\":\"tap\",\"actions\":[]\x7d]\x7d\x7d"

/-- The loose document is read as a page that is written in normal form. -/
theorem looseDocument_read_normal :
    ∃ page, Page.read looseDocument "Draft" = .ok page ∧ page.toJson.compact = normalDocument ∧
      page.toJson.nesting ≤ depthLimit ∧
      Page.read page.toJson.compact "Draft" = .ok page ∧
      (Page.read page.toJson.compact "Draft").map (·.toJson.compact)
        = .ok page.toJson.compact := by
  have hnormal : ((Page.read looseDocument "Draft").map (·.toJson.compact)).toOption
      = some normalDocument := by decide +kernel
  cases h : Page.read looseDocument "Draft" with
  | error diagnostic =>
    rw [h] at hnormal
    cases hnormal
  | ok page =>
    rw [h] at hnormal
    exact ⟨page, rfl, Option.some.inj hnormal, Page.read_normal h⟩

end Pagewright
