/-
A page is read from the document that is written for it.

Everything that a page consists of decodes: fields, methods, actions and
events one after the other, nodes by induction on the tree, since a node is
read inside the brackets of those above it.

* `Page.decodes` — a page, if its kinds come from names;
* `Page.read_written_iff` — so its document is read exactly if brackets are
  nested no deeper in it than readers go, and then as the page itself.
-/
import Pagewright.Page.Document
import Pagewright.Proofs.Json.Decoding
import Pagewright.Proofs.Tree

namespace Pagewright

open Json

variable {depth : Nat}

/-! ### Kinds -/

theorem FieldKind.ofName_name_ofName (name : String) :
    ofName (ofName name).name = ofName name := by
  by_cases hnumber : name.toLower = "number"
  · have hkind : ofName name = .number := if_pos hnumber
    rw [hkind]
    decide +kernel
  by_cases hstring : name.toLower = "string"
  · have hkind : ofName name = .string := (if_neg hnumber).trans (if_pos hstring)
    rw [hkind]
    decide +kernel
  by_cases hboolean : name.toLower = "boolean"
  · have hkind : ofName name = .boolean :=
      (if_neg hnumber).trans ((if_neg hstring).trans (if_pos hboolean))
    rw [hkind]
    decide +kernel
  · have hkind : ofName name = .unsupported name :=
      (if_neg hnumber).trans ((if_neg hstring).trans (if_neg hboolean))
    rw [hkind]
    exact hkind

theorem ActionKind.ofName_name_ofName (name : String) :
    ofName (ofName name).name = ofName name := by
  by_cases hinvoke : name = invokeName
  · have hkind : ofName name = .invoke := if_pos hinvoke
    rw [hkind]
    decide +kernel
  · have hkind : ofName name = .other name := if_neg hinvoke
    rw [hkind]
    exact hkind

/-- The kind of a field comes from a name. -/
def Field.Canonical (field : Field) : Prop :=
  ∃ name, field.kind = .ofName name

/-- The kinds of the actions of an event come from names. -/
def Event.Canonical (event : Event) : Prop :=
  ∀ action ∈ event.actions, ∃ name, action.kind = .ofName name

/-- The kinds of all actions of a tree come from names. -/
def Node.Canonical (root : Node) : Prop :=
  ∀ node : Node, node.IsIn root → ∀ event ∈ node.events, event.Canonical

/-- All kinds of a page come from names: no kind keeps a name that stands for
another one. -/
structure Page.Canonical (page : Page) : Prop where
  fields : ∀ field ∈ page.state.fields, field.Canonical
  root : page.root.Canonical

/-! ### Fields of records -/

theorem Json.Fills.done_of_eq {α : Type} {value result : α} (h : value = result) :
    Fills depth ([] : List (Slot α)) value [] result :=
  h ▸ .done

/-- An entry that is left out when there is nothing in it. -/
theorem Json.Fills.unless {α : Type} {slot : Slot α} {slots : List (Slot α)} {value result : α}
    {written : Value} {set : α → α} {entries : List (String × Value)} {isEmpty : Bool}
    (hoptional : slot.required = false) (hempty : isEmpty = true → set value = value)
    (hwritten : Decodes slot.read written depth set)
    (h : Fills depth slots (set value) entries result) :
    Fills depth (slot :: slots) value (entryUnless isEmpty slot.key written ++ entries) result := by
  cases isEmpty with
  | false => exact .given hwritten h
  | true =>
    rw [hempty rfl] at h
    exact .leftOut hoptional h

theorem Field.decodes {field : Field} (h : field.Canonical) :
    Decodes (record "Field" default (within (fun _ => slots) depth)) field.toJson depth field := by
  obtain ⟨kindName, hkind⟩ := h
  have hread : FieldKind.ofName field.kind.name = field.kind := by
    rw [hkind, FieldKind.ofName_name_ofName]
  refine Decodes.record (fun _ => by simp [slots, required]) fun inner => ?_
  refine .given ((decodes_text _ field.name inner).required _) ?_
  refine .given ((decodes_text _ field.kind.name inner).required _) ?_
  refine .given ((decodes_text _ field.initial inner).required _) (.done_of_eq ?_)
  rw [hread]

theorem Method.decodes (method : Method) :
    Decodes (record "Method" default (within (fun _ => slots) depth)) method.toJson depth
      method := by
  refine Decodes.record (fun _ => by simp [slots, required]) fun inner => ?_
  refine .given ((decodes_text _ method.name inner).required _) ?_
  exact .given ((decodes_text _ method.body inner).required _) .done

theorem PageState.decodes {state : PageState} (h : ∀ field ∈ state.fields, field.Canonical) :
    Decodes (record "PageInfo" default (within slots depth)) state.toJson depth state := by
  refine Decodes.record (fun _ => by simp [slots, required, optionalField]) fun inner => ?_
  refine .given ((Decodes.list fun _ field hfield =>
    Field.decodes (h field hfield)).optionalField _) ?_
  exact .given ((Decodes.list fun _ method _ => method.decodes).optionalField _) .done

theorem Action.decodes {action : Action} (h : ∃ name, action.kind = .ofName name) :
    Decodes (record "Action" default (within (fun _ => slots) depth)) action.toJson depth
      action := by
  obtain ⟨kindName, hkind⟩ := h
  have hread : ActionKind.ofName action.kind.name = action.kind := by
    rw [hkind, ActionKind.ofName_name_ofName]
  refine Decodes.record (fun _ => by simp [slots, required, optionalField]) fun inner => ?_
  refine .given ((decodes_text _ action.kind.name inner).required _) ?_
  refine .given ((decodes_text _ action.method inner).optionalField _) (.done_of_eq ?_)
  rw [hread]

theorem Event.decodes {event : Event} (h : event.Canonical) :
    Decodes (record "Event" default (within slots depth)) event.toJson depth event := by
  refine Decodes.record (fun _ => by simp [slots, required, optionalField]) fun inner => ?_
  refine .given ((decodes_text _ event.type inner).required _) ?_
  exact .given ((Decodes.list fun _ action haction =>
    Action.decodes (h action haction)).optionalField _) .done

/-! ### Trees -/

namespace Node

theorem reader_eq (depth : Nat) :
    reader depth = record "TreeNode" default
      (within (fun inner => slots inner (within reader inner)) depth) := by
  cases depth with
  | zero => rfl
  | succ depth => cases depth <;> rfl

theorem allToJson_eq (children : List Node) : allToJson children = children.map toJson := by
  induction children with
  | nil => rfl
  | cons child children ih => rw [allToJson, ih, List.map_cons]

/-- A node is read if its children are. -/
theorem decodes_of_children {component : String} {props : OrderedMap String}
    {events : List Event} {children : List Node} (hevents : ∀ event ∈ events, event.Canonical)
    (hchildren : ∀ depth, ∀ child ∈ children, Decodes (reader depth) child.toJson depth child) :
    Decodes (reader depth) (toJson ⟨component, props, events, children⟩) depth
      ⟨component, props, events, children⟩ := by
  have hprops (inner : Nat) : Decodes (Json.map (within (fun _ => readString) inner))
      (propsToJson props) inner props :=
    Decodes.map fun inner entry _ => decodes_text _ entry.2 inner
  have hnoProps (h : props.isEmpty = true) : props = ∅ := by
    obtain ⟨entries, distinct⟩ := props
    obtain rfl : entries = [] := List.isEmpty_iff.mp h
    rfl
  rw [reader_eq, toJson, allToJson_eq]
  refine Decodes.record (fun _ => by simp [slots, required, optionalField]) fun inner => ?_
  rw [← List.append_nil (_ ++ _), List.append_assoc, List.append_assoc, List.append_assoc,
    List.singleton_append]
  refine .given ((decodes_text _ component inner).required _) ?_
  refine .unless rfl (fun h => ?_) ((hprops inner).optionalField _) ?_
  · rw [hnoProps h]
    rfl
  refine .unless rfl (fun h => ?_) ((Decodes.list fun _ event hevent =>
    Event.decodes (hevents event hevent)).optionalField _) ?_
  · rw [List.isEmpty_iff.mp h]
    rfl
  refine .unless rfl (fun h => ?_) ((Decodes.list hchildren).optionalField _) .done
  rw [List.isEmpty_iff.mp h]
  rfl

mutual

/-- A tree is read if the kinds of all its actions come from names. -/
theorem decodes : ∀ {node : Node}, node.Canonical →
    ∀ depth, Decodes (reader depth) node.toJson depth node
  | ⟨component, props, events, children⟩, h, _ => by
    refine decodes_of_children (h _ .root) fun depth child hchild => ?_
    exact decodes_children (fun child hchild node hnode =>
      h node (.child hchild hnode)) depth child hchild

theorem decodes_children : ∀ {children : List Node}, (∀ child ∈ children, child.Canonical) →
    ∀ depth, ∀ child ∈ children, Decodes (reader depth) child.toJson depth child
  | [], _, _, _, hmem => absurd hmem List.not_mem_nil
  | child :: children, h, depth, other, hmem => by
    rcases List.mem_cons.mp hmem with heq | hmem
    · rw [heq]
      exact decodes (h child List.mem_cons_self) depth
    · exact decodes_children (fun child hchild => h child (List.mem_cons_of_mem _ hchild)) depth
        other hmem

end

end Node

/-! ### Pages -/

theorem Page.decodes {page : Page} (h : page.Canonical) :
    Decodes Page.reader page.toJson depthLimit page := by
  refine Decodes.record (fun _ => by simp [slots, required, optionalField]) fun inner => ?_
  refine .given ((decodes_text _ page.name inner).optionalField _) ?_
  refine .given ((PageState.decodes h.fields).optionalField _) ?_
  exact .given ((Node.decodes h.root inner).required _) .done

/-- The document of a page is read as the page, up to the name that is put in
place of an empty one, unless brackets are nested too deep in it. -/
theorem Page.read_written {page : Page} (h : page.Canonical) (fallback : String) :
    (page.toJson.nesting ≤ depthLimit →
      Page.read page.toJson.compact fallback = .ok (page.named fallback)) ∧
    (¬page.toJson.nesting ≤ depthLimit → ∃ diagnostic,
      Page.read page.toJson.compact fallback = .error diagnostic) := by
  obtain ⟨hok, herror⟩ := (Page.decodes h).document .memory
  constructor
  · intro hfits
    rw [Page.read, hok hfits]
    rfl
  · intro hfits
    obtain ⟨diagnostic, hdiagnostic⟩ := herror hfits
    exact ⟨diagnostic, by rw [Page.read, hdiagnostic]; rfl⟩

theorem Page.named_name (page : Page) : page.named page.name = page := by
  rw [named]
  split
  · rfl
  · rfl

/-- **The document of a page is read as the page or not at all.**  It is read
exactly if lists and objects are nested in it no deeper than readers go, and
never as another page. -/
theorem Page.read_written_iff (page : Page) (h : page.Canonical) :
    ((∃ read, Page.read page.toJson.compact page.name = .ok read) ↔
      page.toJson.nesting ≤ depthLimit) ∧
    ∀ read, Page.read page.toJson.compact page.name = .ok read → read = page := by
  obtain ⟨hok, herror⟩ := Page.read_written h page.name
  rw [Page.named_name] at hok
  by_cases hfits : page.toJson.nesting ≤ depthLimit
  · refine ⟨⟨fun _ => hfits, fun _ => ⟨page, hok hfits⟩⟩, fun read hread => ?_⟩
    exact Except.ok.inj (hread.symm.trans (hok hfits))
  · obtain ⟨diagnostic, hdiagnostic⟩ := herror hfits
    refine ⟨⟨?_, fun h => absurd h hfits⟩, ?_⟩
    · rintro ⟨read, hread⟩
      cases hread.symm.trans hdiagnostic
    · intro read hread
      cases hread.symm.trans hdiagnostic

/-- A page with texts that have to be escaped, kinds that nothing is known of,
an event without actions and properties that are not in the order of their names. -/
def awkwardPage : Page where
  name := "\"Draft\"\n\\"
  state := ⟨[⟨"born", .unsupported "Date", "\x01\t"⟩, ⟨"open", .boolean, ""⟩],
    [⟨"go", "if (a) \x7b b() \x7d"⟩]⟩
  root := ({ component := "Column" } : Node)
    |>.withChild ((({ component := "" } : Node).withProp "width" "\"2\"").withProp "text" "")
    |>.withChild ((({ component := "Button" } : Node).withEvent ⟨"onClick", []⟩).withEvent
      ⟨"onLongClick", [⟨.invoke, "go"⟩, ⟨.other "navigate", "page.open.value"⟩]⟩)

/-- The awkward page is read from its document. -/
theorem awkwardPage_read_written :
    awkwardPage.Canonical ∧ awkwardPage.toJson.nesting = 8 ∧
    ((∃ read, Page.read awkwardPage.toJson.compact awkwardPage.name = .ok read) ↔
      awkwardPage.toJson.nesting ≤ depthLimit) ∧
    ∀ read, Page.read awkwardPage.toJson.compact awkwardPage.name = .ok read →
      read = awkwardPage := by
  have hfields : ∀ field ∈ awkwardPage.state.fields,
      field.kind = .ofName field.kind.name := by decide +kernel
  have hevents : ∀ entry ∈ awkwardPage.root.placed ⟨"Column", []⟩, ∀ event ∈ entry.2.events,
      ∀ action ∈ event.actions, action.kind = .ofName action.kind.name := by decide +kernel
  have hcanonical : awkwardPage.Canonical := by
    refine ⟨fun field hfield => ⟨_, hfields field hfield⟩, ?_⟩
    intro node hnode event hevent action haction
    obtain ⟨place, hplace⟩ := Node.exists_placed hnode ⟨"Column", []⟩
    exact ⟨_, hevents (place, node) hplace event hevent action haction⟩
  exact ⟨hcanonical, by decide, Page.read_written_iff awkwardPage hcanonical⟩

end Pagewright
