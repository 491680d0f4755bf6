/-
Outlines of trees are faithful.

A tree can be told from its outline, as every part of an outline can be told from
what is written of it and from where the text behind it begins (`Tells`):

* `tells_quoted` — a value in quotes, whatever is in it;
* `Event.tells_outline` — the line of an event.  No line of a component is like
  it (`Node.eventOutline_ne_outlineAt`), even if the component is called `on`;
* `Node.tells_outlineAt` — a tree, if what follows is not indented further than
  the tree is.

`Node.outline_faithful` puts this together, and counts the lines.
-/
import Pagewright.Page.Outline
import Pagewright.Proofs.PageDocument
import Pagewright.Proofs.View.Decoder

namespace Pagewright

open Decoder

variable {α β : Type} {IsItem : α → Prop} {write : α → List Char} {Follows : List Char → Prop}

/-! ### Items that can be told -/

/-- An item can be told from what is written of it in front of a text that may
follow: nothing else is written that way, and that text can be told, too. -/
def Tells (IsItem : α → Prop) (write : α → List Char) (Follows : List Char → Prop)
    (item : α) : Prop :=
  ∀ ⦃other rest rest'⦄, IsItem other → Follows rest → Follows rest' →
    write item ++ rest = write other ++ rest' → item = other ∧ rest = rest'

/-- Items one after the other can be told if each of them can, and if nothing
that follows them begins like an item. -/
theorem Tells.flatMap {FollowsAll : List Char → Prop}
    (hbegin : ∀ item rest text, IsItem item → FollowsAll rest → write item ++ text ≠ rest)
    (hnext : ∀ (items : List α) (rest : List Char), (∀ item ∈ items, IsItem item) →
      FollowsAll rest → Follows (items.flatMap write ++ rest)) {items : List α}
    (hitems : ∀ item ∈ items, IsItem item)
    (h : ∀ item ∈ items, Tells IsItem write Follows item) :
    Tells (fun items => ∀ item ∈ items, IsItem item) (List.flatMap write) FollowsAll items := by
  induction items with
  | nil =>
    intro others rest rest' hothers hrest _ heq
    cases others with
    | nil => exact ⟨rfl, heq⟩
    | cons other others =>
      rw [List.flatMap_cons, List.append_assoc] at heq
      exact absurd heq.symm (hbegin other rest _ (hothers other List.mem_cons_self) hrest)
  | cons item items ih =>
    intro others rest rest' hothers hrest hrest' heq
    cases others with
    | nil =>
      rw [List.flatMap_cons, List.append_assoc] at heq
      exact absurd heq (hbegin item rest' _ (hitems item List.mem_cons_self) hrest')
    | cons other others =>
      rw [List.forall_mem_cons] at hitems hothers h
      rw [List.flatMap_cons, List.flatMap_cons, List.append_assoc, List.append_assoc] at heq
      obtain ⟨hitem, hlater⟩ := h.1 hothers.1 (hnext items rest hitems.2 hrest)
        (hnext others rest' hothers.2 hrest') heq
      obtain ⟨hitems', hrests⟩ := ih hitems.2 h.2 hothers.2 hrest hrest' hlater
      exact ⟨by rw [hitem, hitems'], hrests⟩

theorem tells_run {p : Char → Bool} {run : List Char} (hrun : ∀ c ∈ run, p c = true) :
    Tells (fun run => ∀ c ∈ run, p c = true) id (fun rest => ∀ c ∈ rest.head?, p c = false)
      run := by
  intro other rest rest' hother hrest hrest' heq
  have htake := congrArg (List.takeWhile p) heq
  rw [id, id, takeWhile_run hrun hrest, takeWhile_run hother hrest'] at htake
  rw [htake] at heq
  exact ⟨htake, List.append_cancel_left heq⟩

/-- A text of word characters. -/
def Worded (text : String) : Prop :=
  ∀ c ∈ text.toList, Text.isWordCharacter c = true

instance (text : String) : Decidable (Worded text) :=
  decidable_of_iff _ List.all_eq_true

/-- What does not go on with a word. -/
def EndsWord (rest : List Char) : Prop :=
  ∀ c ∈ rest.head?, Text.isWordCharacter c = false

theorem endsWord_cons {c : Char} (hc : Text.isWordCharacter c = false) (rest : List Char) :
    EndsWord (c :: rest) := by
  rintro d ⟨⟩
  exact hc

theorem tells_word {word : String} (hword : Worded word) :
    Tells Worded String.toList EndsWord word := by
  intro other rest rest' hother hrest hrest' heq
  obtain ⟨hsame, hrest⟩ := tells_run hword hother hrest hrest' heq
  exact ⟨String.toList_inj.mp hsame, hrest⟩

theorem worded_of_isWord {word : String} (h : IsWord word) : Worded word :=
  List.all_eq_true.mp h.2

theorem tells_name {name : String} (hname : IsWord name) :
    Tells IsWord String.toList EndsWord name :=
  fun _ _ _ hother => tells_word (worded_of_isWord hname) (worded_of_isWord hother)

/-! ### Values in quotes -/

/-- The value of a hexadecimal digit. -/
def digitValue (digit : Char) : Nat :=
  "0123456789abcdef".toList.idxOf digit

/-- The number that hexadecimal digits stand for. -/
def hexNumber (digits : List Char) : Nat :=
  digits.foldl (fun number digit => 16 * number + digitValue digit) 0

theorem digitValue_digitChar : ∀ n < 16, digitValue (Nat.digitChar n) = n := by
  decide

theorem hexNumber_toDigits (n : Nat) : hexNumber (Nat.toDigits 16 n) = n := by
  induction n using Nat.strongRecOn with
  | ind n ih =>
    rcases Nat.lt_or_ge n 16 with hlt | hge
    · rw [Nat.toDigits_of_lt_base hlt]
      simp [hexNumber, digitValue_digitChar n hlt]
    · rw [Nat.toDigits_of_base_le (by omega) hge, hexNumber, List.foldl_append, ← hexNumber,
        ih (n / 16) (by omega)]
      simp only [List.foldl_cons, List.foldl_nil]
      rw [digitValue_digitChar (n % 16) (by omega)]
      omega

theorem mem_toDigits (n : Nat) : ∀ digit ∈ Nat.toDigits 16 n, digit ≠ '}' ∧ digit ≠ '\n' := by
  have hdigit : ∀ n < 16, Nat.digitChar n ≠ '}' ∧ Nat.digitChar n ≠ '\n' := by decide
  induction n using Nat.strongRecOn with
  | ind n ih =>
    rcases Nat.lt_or_ge n 16 with hlt | hge
    · rw [Nat.toDigits_of_lt_base hlt, List.forall_mem_singleton]
      exact hdigit n hlt
    · rw [Nat.toDigits_of_base_le (by omega) hge, List.forall_mem_append,
        List.forall_mem_singleton]
      exact ⟨ih (n / 16) (by omega), hdigit (n % 16) (by omega)⟩

/-- The character that a letter behind a backslash stands for. -/
def unescaped? : Char → Option Char
  | '"' => some '"'
  | '\\' => some '\\'
  | 't' => some '\t'
  | 'n' => some '\n'
  | 'r' => some '\r'
  | '0' => some '\x00'
  | _ => none

/-- Reads one character of a value in quotes. -/
def readQuoted? : List Char → Option (Char × List Char)
  | '\\' :: 'u' :: '{' :: text =>
    some (Char.ofNat (hexNumber (text.takeWhile (· != '}'))), (text.dropWhile (· != '}')).tail)
  | '\\' :: letter :: text => (unescaped? letter).map (·, text)
  | c :: text => some (c, text)
  | [] => none

/-- The characters that have an escape of their own. -/
def lettered : List Char := ['"', '\\', '\t', '\n', '\r', '\x00']

/-- A character without an escape of its own is written with its code point, or
as it is. -/
theorem escapeQuoted_of_not_mem {c : Char} (h : c ∉ lettered) :
    Text.escapeQuoted c = '\\' :: 'u' :: '{' :: (Nat.toDigits 16 c.toNat ++ ['}']) ∨
      Text.escapeQuoted c = [c] := by
  simp only [lettered, List.mem_cons, List.not_mem_nil, or_false, not_or] at h
  simp only [Text.escapeQuoted, h, if_false]
  split
  · exact .inl rfl
  · exact .inr rfl

theorem readQuoted?_escapeQuoted (c : Char) (rest : List Char) :
    readQuoted? (Text.escapeQuoted c ++ rest) = some (c, rest) := by
  by_cases h : c ∈ lettered
  · simp only [lettered, List.mem_cons, List.not_mem_nil, or_false] at h
    rcases h with rfl | rfl | rfl | rfl | rfl | rfl <;> rfl
  · rcases escapeQuoted_of_not_mem h with hspelled | hplain
    · have hdigits : ∀ digit ∈ Nat.toDigits 16 c.toNat, (digit != '}') = true := by
        simpa using fun digit hdigit => (mem_toDigits c.toNat digit hdigit).1
      have hbrace : ∀ d ∈ ('}' :: rest).head?, (d != '}') = false := by
        rintro d ⟨⟩
        rfl
      have htake : (Nat.toDigits 16 c.toNat ++ '}' :: rest).takeWhile (· != '}')
          = Nat.toDigits 16 c.toNat := takeWhile_run hdigits hbrace
      have hdrop : (Nat.toDigits 16 c.toNat ++ '}' :: rest).dropWhile (· != '}') = '}' :: rest :=
        dropWhile_run hdigits hbrace
      rw [hspelled]
      simp [readQuoted?, htake, hdrop, hexNumber_toDigits]
    · have hslash : c ≠ '\\' := by
        rintro rfl
        exact h (by decide)
      rw [hplain]
      simp [readQuoted?, hslash]

theorem tells_escapeQuoted (c : Char) :
    Tells (fun _ => True) Text.escapeQuoted (fun _ => True) c := by
  intro d rest rest' _ _ _ heq
  have hread := congrArg readQuoted? heq
  rw [readQuoted?_escapeQuoted, readQuoted?_escapeQuoted] at hread
  exact Prod.mk.inj (Option.some.inj hread)

/-- What is written between quotes holds neither a quote in front of a character
nor a line feed. -/
theorem escapeQuoted_spec (c : Char) :
    (∀ rest text, Text.escapeQuoted c ++ text ≠ '"' :: rest) ∧ '\n' ∉ Text.escapeQuoted c := by
  by_cases h : c ∈ lettered
  · simp only [lettered, List.mem_cons, List.not_mem_nil, or_false] at h
    rcases h with rfl | rfl | rfl | rfl | rfl | rfl <;>
      exact ⟨fun rest text heq => by simp [Text.escapeQuoted] at heq, by decide⟩
  · have hquote : c ≠ '"' ∧ c ≠ '\n' := by
      constructor <;> rintro rfl <;> exact h (by decide)
    rcases escapeQuoted_of_not_mem h with hspelled | hplain
    · rw [hspelled]
      refine ⟨fun rest text heq => by simp at heq, ?_⟩
      simpa using fun hmem => (mem_toDigits c.toNat _ hmem).2 rfl
    · rw [hplain]
      exact ⟨fun rest text heq => hquote.1 (List.cons.inj heq).1, by simpa using hquote.2.symm⟩

theorem toList_quoted (text : String) :
    (Text.quoted text).toList = '"' :: (text.toList.flatMap Text.escapeQuoted ++ ['"']) :=
  String.toList_ofList

/-- A value in quotes can be told, whatever follows it. -/
theorem tells_quoted (text : String) :
    Tells (fun _ => True) (fun text => (Text.quoted text).toList) (fun _ => True) text := by
  intro other rest rest' _ _ _ heq
  have htells : Tells (fun text => ∀ c ∈ text, True) (List.flatMap Text.escapeQuoted)
      (fun rest => ∃ text, rest = '"' :: text) text.toList := by
    refine Tells.flatMap (fun c rest text _ hrest => ?_) (fun _ _ _ _ => trivial)
      (fun _ _ => trivial) fun c _ => tells_escapeQuoted c
    obtain ⟨rest, rfl⟩ := hrest
    exact (escapeQuoted_spec c).1 rest text
  simp only [toList_quoted, List.cons_append, List.append_assoc] at heq
  obtain ⟨htext, hrest⟩ := htells (fun _ _ => trivial) ⟨rest, rfl⟩ ⟨rest', rfl⟩
    (List.cons.inj heq).2
  exact ⟨String.toList_inj.mp htext, (List.cons.inj hrest).2⟩

theorem newLine_not_mem_quoted (text : String) : '\n' ∉ (Text.quoted text).toList := by
  rw [toList_quoted]
  simpa using fun c _ => (escapeQuoted_spec c).2

/-! ### Properties, actions and events -/

theorem toList_outlineProp (prop : String × String) :
    (outlineProp prop).toList = ' ' :: (prop.1.toList ++ '=' :: (Text.quoted prop.2).toList) := by
  simp [outlineProp]

theorem tells_outlineProp {prop : String × String} (hkey : IsWord prop.1) :
    Tells (fun prop => IsWord prop.1) (fun prop => (outlineProp prop).toList) (fun _ => True)
      prop := by
  intro other rest rest' hother _ _ heq
  simp only [toList_outlineProp, List.cons_append, List.append_assoc] at heq
  have hequals : Text.isWordCharacter '=' = false := by decide +kernel
  obtain ⟨hkey, hvalue⟩ := tells_name hkey hother (endsWord_cons hequals _)
    (endsWord_cons hequals _) (List.cons.inj heq).2
  obtain ⟨hvalue, hrest⟩ := tells_quoted prop.2 trivial trivial trivial (List.cons.inj hvalue).2
  exact ⟨Prod.ext hkey hvalue, hrest⟩

/-- An action whose names can be told from what stands around them, and whose kind
comes from its name. -/
structure Action.Clear (action : Action) : Prop where
  kind : IsWord action.kind.name
  canonical : ∃ name, action.kind = .ofName name
  method : Worded action.method

/-- An event whose names can be told from what stands around them. -/
structure Event.Clear (event : Event) : Prop where
  type : IsWord event.type
  actions : ∀ action ∈ event.actions, action.Clear

/-- The kind of an action can be told from its name. -/
theorem Action.Clear.ofName_name {action : Action} (h : action.Clear) :
    ActionKind.ofName action.kind.name = action.kind := by
  obtain ⟨name, hkind⟩ := h.canonical
  rw [hkind, ActionKind.ofName_name_ofName]

instance (action : Action) : Decidable action.Clear :=
  decidable_of_iff (IsWord action.kind.name ∧ ActionKind.ofName action.kind.name = action.kind ∧
      Worded action.method)
    ⟨fun ⟨hkind, hcanonical, hmethod⟩ => ⟨hkind, ⟨_, hcanonical.symm⟩, hmethod⟩,
      fun h => ⟨h.kind, h.ofName_name, h.method⟩⟩

instance (event : Event) : Decidable event.Clear :=
  decidable_of_iff (_ ∧ _) ⟨fun ⟨htype, hactions⟩ => ⟨htype, hactions⟩,
    fun h => ⟨h.type, h.actions⟩⟩

theorem Action.toList_outline (action : Action) :
    action.outline.toList = action.kind.name.toList ++ '(' :: (action.method.toList ++ [')']) := by
  simp [outline]

theorem Action.tells_outline {action : Action} (h : action.Clear) :
    Tells Clear (fun action => action.outline.toList) (fun _ => True) action := by
  intro other rest rest' hother _ _ heq
  simp only [toList_outline, List.append_assoc, List.cons_append, List.nil_append] at heq
  have hopen : Text.isWordCharacter '(' = false := by decide +kernel
  have hclose : Text.isWordCharacter ')' = false := by decide +kernel
  obtain ⟨hname, hmethod⟩ := tells_name h.kind hother.kind (endsWord_cons hopen _)
    (endsWord_cons hopen _) heq
  obtain ⟨hmethod, hrest⟩ := tells_word h.method hother.method (endsWord_cons hclose _)
    (endsWord_cons hclose _) (List.cons.inj hmethod).2
  refine ⟨?_, (List.cons.inj hrest).2⟩
  have hkind : action.kind = other.kind := by
    rw [← h.ofName_name, hname, hother.ofName_name]
  cases action
  cases other
  simp_all

/-- An action behind another one. -/
def laterAction (action : Action) : List Char :=
  ',' :: ' ' :: action.outline.toList

/-- The actions of an event as they stand behind its arrow. -/
def actionsOutline : List Action → List Char
  | [] => []
  | action :: later => ' ' :: (action.outline.toList ++ later.flatMap laterAction)

theorem intercalate_outline (action : Action) (later : List Action) :
    (", ".intercalate ((action :: later).map Action.outline)).toList
      = action.outline.toList ++ later.flatMap laterAction := by
  induction later generalizing action with
  | nil => simp
  | cons next later ih =>
    specialize ih next
    rw [List.map_cons] at ih
    rw [List.map_cons, List.map_cons, String.intercalate_cons_cons, String.toList_append,
      String.toList_append, ih, List.flatMap_cons, laterAction]
    simp

theorem toList_outlineIndent (level : Nat) :
    (outlineIndent level).toList = List.replicate (2 * level) ' ' :=
  String.toList_ofList

theorem Event.toList_outline (level : Nat) (event : Event) :
    (event.outline level).toList = (outlineIndent (level + 1)).toList ++
      'o' :: 'n' :: ' ' :: (event.type.toList ++
        ' ' :: '-' :: '>' :: (actionsOutline event.actions ++ ['\n'])) := by
  have hactions : (if (event.actions.map Action.outline).isEmpty then ""
      else " " ++ ", ".intercalate (event.actions.map Action.outline)).toList
        = actionsOutline event.actions := by
    cases event.actions with
    | nil => rfl
    | cons action later =>
      rw [List.map_cons, List.isEmpty_cons, if_neg Bool.false_ne_true, ← List.map_cons,
        String.toList_append, intercalate_outline]
      rfl
  have hindent : (outlineIndent (level + 1)).toList = (outlineIndent level).toList ++ [' ', ' '] := by
    rw [toList_outlineIndent, toList_outlineIndent, Nat.mul_add,
      ← List.replicate_append_replicate]
    rfl
  simp only [outline, String.toList_append, hactions, hindent, List.append_assoc]
  rfl

theorem tells_actionsOutline {actions : List Action} (h : ∀ action ∈ actions, action.Clear) :
    Tells (fun actions => ∀ action ∈ actions, action.Clear) actionsOutline
      (fun rest => ∃ text, rest = '\n' :: text) actions := by
  have hlater : ∀ later : List Action, (∀ action ∈ later, action.Clear) →
      Tells (fun actions => ∀ action ∈ actions, action.Clear) (List.flatMap laterAction)
        (fun rest => ∃ text, rest = '\n' :: text) later := by
    intro later hclear
    have haction : ∀ action ∈ later, Tells Action.Clear laterAction (fun _ => True) action := by
      intro action hmem other rest rest' hother hrest hrest' heq
      simp only [laterAction, List.cons_append, List.cons.injEq, true_and] at heq
      exact Action.tells_outline (hclear action hmem) hother hrest hrest' heq
    refine Tells.flatMap ?_ (fun _ _ _ _ => trivial) hclear haction
    rintro action _ text - ⟨rest, rfl⟩ heq
    simp [laterAction] at heq
  intro others rest rest' hothers hrest hrest' heq
  cases actions with
  | nil =>
    cases others with
    | nil => exact ⟨rfl, heq⟩
    | cons other others =>
      obtain ⟨rest, rfl⟩ := hrest
      simp [actionsOutline] at heq
  | cons action actions =>
    cases others with
    | nil =>
      obtain ⟨rest', rfl⟩ := hrest'
      simp [actionsOutline] at heq
    | cons other others =>
      rw [List.forall_mem_cons] at h hothers
      simp only [actionsOutline, List.cons_append, List.append_assoc, List.cons.injEq,
        true_and] at heq
      obtain ⟨hfirst, hafter⟩ := Action.tells_outline h.1 hothers.1 trivial trivial heq
      obtain ⟨hactions, hrests⟩ := hlater actions h.2 hothers.2 hrest hrest' hafter
      exact ⟨by rw [hfirst, hactions], hrests⟩

/-- The line of an event can be told, whatever follows it. -/
theorem Event.tells_outline {event : Event} (level : Nat) (h : event.Clear) :
    Tells Clear (fun event => (event.outline level).toList) (fun _ => True) event := by
  intro other rest rest' hother _ _ heq
  simp only [toList_outline, List.append_assoc, List.append_cancel_left_eq, List.cons_append,
    List.cons.injEq, true_and, List.nil_append] at heq
  have hblank : Text.isWordCharacter ' ' = false := by decide +kernel
  obtain ⟨htype, heq⟩ := tells_name h.type hother.type (endsWord_cons hblank _)
    (endsWord_cons hblank _) heq
  simp only [List.cons.injEq, true_and] at heq
  obtain ⟨hactions, hrest⟩ := tells_actionsOutline h.actions hother.actions ⟨rest, rfl⟩
    ⟨rest', rfl⟩ heq
  refine ⟨?_, (List.cons.inj hrest).2⟩
  cases event
  cases other
  simp_all

/-! ### Trees -/

/-- The number of blanks in front of a text. -/
def margin (text : List Char) : Nat :=
  (text.takeWhile (· == ' ')).length

theorem margin_indent (level : Nat) {c : Char} (hc : c ≠ ' ') (rest : List Char) :
    margin ((outlineIndent level).toList ++ c :: rest) = 2 * level := by
  rw [margin, toList_outlineIndent, takeWhile_run (by simp) (by simpa using hc),
    List.length_replicate]

namespace Node

/-- A node whose own names can be told from what stands around them. -/
structure Named (node : Node) : Prop where
  component : IsWord node.component
  props : ∀ prop ∈ node.props.entries, IsWord prop.1
  events : ∀ event ∈ node.events, event.Clear

instance (node : Node) : Decidable node.Named :=
  decidable_of_iff (_ ∧ _ ∧ _) ⟨fun ⟨hcomponent, hprops, hevents⟩ => ⟨hcomponent, hprops, hevents⟩,
    fun h => ⟨h.component, h.props, h.events⟩⟩

/-- A tree in which all names can be told from what stands around them. -/
def Clear (root : Node) : Prop :=
  ∀ node : Node, node.IsIn root → node.Named

theorem Clear.child {root child : Node} (h : root.Clear) (hchild : child ∈ root.children) :
    child.Clear :=
  fun node hnode => h node (.child hchild hnode)

theorem clear_of_placed {root : Node} (path : NodePath)
    (h : ∀ entry ∈ root.placed path, entry.2.Named) : root.Clear := by
  intro node hnode
  obtain ⟨place, hplace⟩ := exists_placed hnode path
  exact h (place, node) hplace

theorem toList_outlineAll (level : Nat) (nodes : List Node) :
    (outlineAll level nodes).toList = nodes.flatMap fun node => (node.outlineAt level).toList := by
  induction nodes with
  | nil => rfl
  | cons node rest ih => rw [outlineAll, String.toList_append, ih, List.flatMap_cons]

theorem toList_outlineAt (level : Nat) (node : Node) :
    (node.outlineAt level).toList = (outlineIndent level).toList ++ (node.component.toList ++
      (node.props.entries.flatMap (fun prop => (outlineProp prop).toList) ++
        '\n' :: (node.events.flatMap (fun event => (event.outline level).toList) ++
          (outlineAll (level + 1) node.children).toList))) := by
  obtain ⟨component, props, events, children⟩ := node
  rw [outlineAt]
  simp [String.toList_join, List.flatMap_map]

theorem Named.margin_outlineAt {node : Node} (h : node.Named) (level : Nat) (rest : List Char) :
    margin ((node.outlineAt level).toList ++ rest) = 2 * level := by
  obtain ⟨c, name, hname⟩ := List.exists_cons_of_ne_nil h.component.1
  have hc : c ≠ ' ' := h.component.ne_of_mem (hname ▸ List.mem_cons_self) (by decide +kernel)
  rw [toList_outlineAt, hname, List.append_assoc, List.cons_append, List.cons_append]
  exact margin_indent level hc _

/-- The properties of a node end at a line feed. -/
theorem Named.tells_props {node : Node} (h : node.Named) :
    Tells (fun props => ∀ prop ∈ props, IsWord prop.1)
      (List.flatMap fun prop => (outlineProp prop).toList) (fun rest => ∃ text, rest = '\n' :: text)
      node.props.entries := by
  refine Tells.flatMap ?_ (fun _ _ _ _ => trivial) h.props
    fun prop hprop => tells_outlineProp (h.props prop hprop)
  rintro prop _ text - ⟨rest, rfl⟩ heq
  simp [toList_outlineProp] at heq

/-- The name of a component ends in front of its properties. -/
theorem endsWord_props (props : List (String × String)) (text : List Char) :
    EndsWord (props.flatMap (fun prop => (outlineProp prop).toList) ++ '\n' :: text) := by
  cases props with
  | nil => exact endsWord_cons (by decide +kernel) text
  | cons prop props =>
    rw [List.flatMap_cons, toList_outlineProp]
    exact endsWord_cons (by decide +kernel) _

/-- What stands below a node and its events is indented, or does not belong to it. -/
theorem margin_children {level : Nat} {nodes : List Node} {rest : List Char}
    (h : ∀ node ∈ nodes, node.Clear) (hrest : margin rest < 2 * level) :
    margin ((outlineAll level nodes).toList ++ rest) ≤ 2 * level := by
  rw [toList_outlineAll]
  cases nodes with
  | nil => exact Nat.le_of_lt hrest
  | cons node nodes =>
    have hnode := h node List.mem_cons_self node .root
    rw [List.flatMap_cons, List.append_assoc]
    exact Nat.le_of_eq (hnode.margin_outlineAt level _)

/-- No line of a component begins like that of an event: behind `on` and a word
there is an equals sign. -/
theorem eventOutline_ne_outlineAt {level : Nat} {event : Event} (hevent : event.Clear)
    {node : Node} (hnode : node.Named) (text rest : List Char) :
    (event.outline level).toList ++ text ≠ (node.outlineAt (level + 1)).toList ++ rest := by
  intro heq
  have hblank : Text.isWordCharacter ' ' = false := by decide +kernel
  have hequals : Text.isWordCharacter '=' = false := by decide +kernel
  have hon : IsWord "on" := by decide +kernel
  simp only [Event.toList_outline, toList_outlineAt, List.append_assoc,
    List.append_cancel_left_eq, List.cons_append] at heq
  obtain ⟨-, heq⟩ := tells_name hon hnode.component (endsWord_cons hblank _) (endsWord_props _ _) heq
  cases hprops : node.props.entries with
  | nil => simp [hprops] at heq
  | cons prop props =>
    have hkey : IsWord prop.1 := hnode.props prop (hprops ▸ List.mem_cons_self)
    simp only [hprops, List.flatMap_cons, toList_outlineProp, List.cons_append, List.append_assoc,
      List.cons.injEq, true_and] at heq
    obtain ⟨-, heq⟩ := tells_name hevent.type hkey (endsWord_cons hblank _)
      (endsWord_cons hequals _) heq
    simp at heq

/-- What follows the events of a node begins like none of them. -/
theorem eventOutline_ne_children {level : Nat} {event : Event} (hevent : event.Clear)
    {nodes : List Node} (h : ∀ node ∈ nodes, node.Clear) {rest : List Char}
    (hrest : margin rest ≤ 2 * level) (text : List Char) :
    (event.outline level).toList ++ text ≠ (outlineAll (level + 1) nodes).toList ++ rest := by
  rw [toList_outlineAll]
  cases nodes with
  | nil =>
    rintro rfl
    rw [Event.toList_outline, List.append_assoc, List.cons_append,
      margin_indent _ (by decide)] at hrest
    omega
  | cons node nodes =>
    rw [List.flatMap_cons, List.append_assoc]
    exact eventOutline_ne_outlineAt hevent (h node List.mem_cons_self node .root) text _

theorem eq_of_parts {node other : Node} (hcomponent : node.component = other.component)
    (hprops : node.props.entries = other.props.entries) (hevents : node.events = other.events)
    (hchildren : node.children = other.children) : node = other := by
  obtain ⟨component, ⟨entries, _⟩, events, children⟩ := node
  obtain ⟨component', ⟨entries', _⟩, events', children'⟩ := other
  cases hcomponent
  cases hprops
  cases hevents
  cases hchildren
  rfl

/-- A node can be told if its children can. -/
theorem tells_outlineAt_of_children {level : Nat} {node : Node} (h : node.Clear)
    (hchildren : ∀ child ∈ node.children, Tells Clear
      (fun child => (child.outlineAt (level + 1)).toList) (margin · ≤ 2 * (level + 1)) child) :
    Tells Clear (fun node => (node.outlineAt level).toList) (margin · ≤ 2 * level) node := by
  intro other rest rest' hother hrest hrest' heq
  have hnode := h node .root
  have hnode' := hother other .root
  -- The components, then the properties up to the end of the line.
  simp only [toList_outlineAt, List.append_assoc, List.append_cancel_left_eq,
    List.cons_append] at heq
  obtain ⟨hcomponent, heq⟩ := tells_name hnode.component hnode'.component (endsWord_props _ _)
    (endsWord_props _ _) heq
  obtain ⟨hprops, heq⟩ := hnode.tells_props hnode'.props ⟨_, rfl⟩ ⟨_, rfl⟩ heq
  -- The events end where a child, or something that is indented less, begins.
  have hevents : Tells (fun events => ∀ event ∈ events, event.Clear)
      (List.flatMap fun event => (event.outline level).toList)
      (fun text => ∃ nodes rest, (∀ node ∈ nodes, Clear node) ∧ margin rest ≤ 2 * level ∧
        text = (outlineAll (level + 1) nodes).toList ++ rest)
      node.events := by
    refine Tells.flatMap ?_ (fun _ _ _ _ => trivial) hnode.events
      fun event hmem => Event.tells_outline level (hnode.events event hmem)
    rintro event _ text hevent ⟨nodes, rest, hnodes, hrest, rfl⟩
    exact eventOutline_ne_children hevent hnodes hrest text
  obtain ⟨hevents, heq⟩ := hevents hnode'.events ⟨_, rest, fun _ => h.child, hrest, rfl⟩
    ⟨_, rest', fun _ => hother.child, hrest', rfl⟩ (List.cons.inj heq).2
  -- The children end where something that is indented less begins.
  have hnodes : Tells (fun nodes => ∀ node ∈ nodes, Clear node)
      (List.flatMap fun node => (node.outlineAt (level + 1)).toList) (margin · ≤ 2 * level)
      node.children := by
    refine Tells.flatMap ?_ ?_ (fun _ => h.child) hchildren
    · rintro child rest text hchild hrest rfl
      rw [(hchild child .root).margin_outlineAt] at hrest
      omega
    · intro nodes rest hnodes hrest
      rw [← toList_outlineAll]
      exact margin_children hnodes (by omega)
  rw [toList_outlineAll, toList_outlineAll] at heq
  obtain ⟨hnodes, hrests⟩ := hnodes (fun _ => hother.child) hrest hrest' heq
  exact ⟨eq_of_parts hcomponent hprops hevents hnodes, hrests⟩

mutual

/-- A tree can be told from its lines at any level, if what follows is not
indented further. -/
theorem tells_outlineAt : ∀ {node : Node}, node.Clear → ∀ level,
    Tells Clear (fun node => (node.outlineAt level).toList) (margin · ≤ 2 * level) node
  | ⟨_, _, _, _⟩, h, level =>
    tells_outlineAt_of_children h fun child hchild =>
      tells_outlineAll (fun _ => h.child) (level + 1) child hchild

theorem tells_outlineAll : ∀ {nodes : List Node}, (∀ node ∈ nodes, node.Clear) → ∀ level,
    ∀ node ∈ nodes,
      Tells Clear (fun node => (node.outlineAt level).toList) (margin · ≤ 2 * level) node
  | [], _, _, _, hmem => absurd hmem List.not_mem_nil
  | node :: nodes, h, level, other, hmem => by
    rcases List.mem_cons.mp hmem with heq | hmem
    · rw [heq]
      exact tells_outlineAt (h node List.mem_cons_self) level
    · exact tells_outlineAll (fun node hnode => h node (List.mem_cons_of_mem _ hnode)) level
        other hmem

end

mutual

/-- The number of events in a tree. -/
def eventCount : Node → Nat
  | ⟨_, _, events, children⟩ => events.length + eventCountAll children

/-- The number of events in some trees. -/
def eventCountAll : List Node → Nat
  | [] => 0
  | node :: rest => node.eventCount + eventCountAll rest

end

end Node

/-! ### Lines -/

/-- A line that is complete is one line. -/
theorem length_lines_cons {line : List Char} (h : '\n' ∉ line) (rest : List Char) :
    (Text.lines (line ++ '\n' :: rest)).length = (Text.lines rest).length + 1 := by
  rw [Text.lines, Text.linesFrom_append line h, List.length_cons]

theorem newLine_not_mem_of_worded {word : String} (h : Worded word) : '\n' ∉ word.toList := by
  intro hmem
  have hfeed : Text.isWordCharacter '\n' = false := by decide +kernel
  rw [h _ hmem] at hfeed
  cases hfeed

theorem newLine_not_mem_outlineIndent (level : Nat) : '\n' ∉ (outlineIndent level).toList := by
  rw [toList_outlineIndent]
  exact fun hmem => absurd (List.eq_of_mem_replicate hmem) (by decide)

theorem newLine_not_mem_actionOutline {action : Action} (h : action.Clear) :
    '\n' ∉ action.outline.toList := by
  have hkind := newLine_not_mem_of_worded (worded_of_isWord h.kind)
  have hmethod := newLine_not_mem_of_worded h.method
  simp [Action.toList_outline, hkind, hmethod]

theorem newLine_not_mem_actionsOutline {actions : List Action}
    (h : ∀ action ∈ actions, action.Clear) : '\n' ∉ actionsOutline actions := by
  cases actions with
  | nil => exact List.not_mem_nil
  | cons action later =>
    rw [List.forall_mem_cons] at h
    have hlater : '\n' ∉ later.flatMap laterAction := by
      simpa [laterAction] using fun action hmem => newLine_not_mem_actionOutline (h.2 action hmem)
    simp [actionsOutline, newLine_not_mem_actionOutline h.1, hlater]

theorem Event.Clear.length_lines_outline {event : Event} (h : event.Clear) (level : Nat)
    (rest : List Char) :
    (Text.lines ((event.outline level).toList ++ rest)).length = (Text.lines rest).length + 1 := by
  have hline : (event.outline level).toList ++ rest = ((outlineIndent (level + 1)).toList ++
      'o' :: 'n' :: ' ' :: (event.type.toList ++ ' ' :: '-' :: '>' :: actionsOutline event.actions))
        ++ '\n' :: rest := by
    simp [Event.toList_outline]
  rw [hline, length_lines_cons]
  simp [newLine_not_mem_outlineIndent, newLine_not_mem_of_worded (worded_of_isWord h.type),
    newLine_not_mem_actionsOutline h.actions]

theorem length_lines_events {events : List Event} (h : ∀ event ∈ events, event.Clear)
    (level : Nat) (rest : List Char) :
    (Text.lines (events.flatMap (fun event => (event.outline level).toList) ++ rest)).length
      = (Text.lines rest).length + events.length := by
  induction events with
  | nil => rfl
  | cons event events ih =>
    rw [List.forall_mem_cons] at h
    rw [List.flatMap_cons, List.append_assoc, h.1.length_lines_outline, ih h.2, List.length_cons]
    omega

namespace Node

theorem Named.newLine_not_mem_heading {node : Node} (h : node.Named) (level : Nat) :
    '\n' ∉ ((outlineIndent level).toList ++ node.component.toList)
      ++ node.props.entries.flatMap fun prop => (outlineProp prop).toList := by
  have hprops : ∀ prop ∈ node.props.entries, '\n' ∉ (outlineProp prop).toList := by
    intro prop hprop
    have hkey := newLine_not_mem_of_worded (worded_of_isWord (h.props prop hprop))
    simp [toList_outlineProp, hkey, newLine_not_mem_quoted]
  rw [List.mem_append, List.mem_append, List.mem_flatMap, not_or, not_or]
  refine ⟨⟨newLine_not_mem_outlineIndent level,
    newLine_not_mem_of_worded (worded_of_isWord h.component)⟩, ?_⟩
  rintro ⟨prop, hmem, hfeed⟩
  exact hprops prop hmem hfeed

mutual

/-- A tree has one line for each of its nodes and events. -/
theorem length_lines_outlineAt : ∀ {node : Node}, node.Clear → ∀ (level : Nat) (rest : List Char),
    (Text.lines ((node.outlineAt level).toList ++ rest)).length
      = (Text.lines rest).length + (node.count + node.eventCount)
  | ⟨component, props, events, children⟩, h, level, rest => by
    have hnode := h _ .root
    have hchildren := length_lines_outlineAll (fun _ => h.child) (level + 1) rest
    rw [toList_outlineAt]
    simp only [List.append_assoc, List.cons_append]
    rw [← List.append_assoc, ← List.append_assoc,
      length_lines_cons (hnode.newLine_not_mem_heading level), length_lines_events hnode.events,
      hchildren, count, eventCount]
    dsimp only
    omega

theorem length_lines_outlineAll : ∀ {nodes : List Node}, (∀ node ∈ nodes, node.Clear) →
    ∀ (level : Nat) (rest : List Char),
    (Text.lines ((outlineAll level nodes).toList ++ rest)).length
      = (Text.lines rest).length + (countAll nodes + eventCountAll nodes)
  | [], _, _, _ => rfl
  | node :: nodes, h, level, rest => by
    rw [List.forall_mem_cons] at h
    rw [outlineAll, String.toList_append, List.append_assoc, length_lines_outlineAt h.1,
      length_lines_outlineAll h.2, countAll, eventCountAll]
    omega

end

/-- **The outline of a tree is faithful.**  If all names in a tree can be told from
what stands around them, whatever the values of its properties hold, no other such
tree has the same outline; and there is one line for each node and each event. -/
theorem outline_faithful (node other : Node) (h : node.Clear) (h' : other.Clear) :
    (node.outline = other.outline → node = other) ∧
    (Text.lines node.outline.toList).length = node.count + node.eventCount := by
  constructor
  · intro heq
    have hlines : (node.outlineAt 0).toList ++ [] = (other.outlineAt 0).toList ++ [] := by
      rw [List.append_nil, List.append_nil]
      exact congrArg String.toList heq
    exact (tells_outlineAt h 0 h' (Nat.zero_le _) (Nat.zero_le _) hlines).1
  · have hlength := length_lines_outlineAt h 0 []
    rw [List.append_nil] at hlength
    simpa [outline, Text.lines, Text.linesFrom] using hlength

end Node

/-- A tree with an event, and an action that names no method. -/
def eventTree : Node :=
  ({ component := "Column" } : Node).withEvent ⟨"onClick", [⟨.invoke, ""⟩]⟩

/-- A tree with a component that is called like the line of an event, and with a
value that goes on like one. -/
def onTree : Node :=
  ({ component := "Column" } : Node).withChild
    (({ component := "on" } : Node).withProp "onClick" "\" ->\n  on onClick -> actionName()")

/-- The two trees have different outlines of two lines. -/
theorem onTree_outline_faithful :
    onTree.Clear ∧ eventTree.Clear ∧ onTree.outline ≠ eventTree.outline ∧
      (Text.lines onTree.outline.toList).length = 2 := by
  have hon : onTree.Clear := Node.clear_of_placed (.ofRoot onTree) (by decide +kernel)
  have hevent : eventTree.Clear := Node.clear_of_placed (.ofRoot eventTree) (by decide +kernel)
  have hne : onTree ≠ eventTree := fun heq => by cases congrArg Node.children heq
  obtain ⟨hsame, hlength⟩ := Node.outline_faithful onTree eventTree hon hevent
  exact ⟨hon, hevent, fun heq => hne (hsame heq), hlength.trans rfl⟩

end Pagewright
