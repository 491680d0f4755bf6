/-
What a view shows of a part of a tree depends on nothing around it.

A node is found by its address, the indices of the children on the way down
to it.  If it is replaced by another node, the view keeps everything around its
lines:

* `Node.Resolves.graft` — the calls of the tree stay the same around the call
  that the node becomes;
* `Page.view_of_permuted` — so permuting the children of a node permutes their
  lines and nothing else.
-/
import Pagewright.Proofs.View.Imports
import Pagewright.Proofs.View.Resolving

namespace Pagewright

/-! ### Addresses -/

namespace Node

/-- The node at an address. -/
def at? : Node → List Nat → Option Node
  | root, [] => some root
  | root, index :: address => root.children[index]?.bind fun child => child.at? address

/-- The tree with another node at an address. -/
def graft : Node → List Nat → Node → Node
  | _, [], new => new
  | root, index :: address, new =>
    { root with children := root.children.modify index fun child => child.graft address new }

/-- The nodes of a tree are those that have an address. -/
theorem isIn_iff_exists_at? {node root : Node} :
    node.IsIn root ↔ ∃ address, root.at? address = some node := by
  constructor
  · intro h
    induction h with
    | root => exact ⟨[], rfl⟩
    | @child child parent hchild _ ih =>
      obtain ⟨address, haddress⟩ := ih
      obtain ⟨index, hindex⟩ := List.mem_iff_getElem?.mp hchild
      exact ⟨index :: address, by rw [at?, hindex, Option.bind_some, haddress]⟩
  · rintro ⟨address, h⟩
    induction address generalizing root with
    | nil =>
      obtain rfl := Option.some.inj h
      exact .root
    | cons index address ih =>
      obtain ⟨child, hindex, hchild⟩ := Option.bind_eq_some_iff.mp h
      exact .child (List.mem_of_getElem? hindex) (ih hchild)

/-- Below a node, an address goes through one of its children, and what is
replaced there is replaced in that child. -/
theorem exists_of_at?_cons {root node : Node} {index : Nat} {address : List Nat}
    (h : root.at? (index :: address) = some node) :
    ∃ front child back, root.children = front ++ child :: back ∧ child.at? address = some node ∧
      ∀ new, root.graft (index :: address) new
        = { root with children := front ++ child.graft address new :: back } := by
  obtain ⟨child, hindex, hchild⟩ := Option.bind_eq_some_iff.mp h
  obtain ⟨hlt, rfl⟩ := List.getElem?_eq_some_iff.mp hindex
  refine ⟨root.children.take index, _, root.children.drop (index + 1), ?_, hchild, fun new => ?_⟩
  · rw [← List.drop_eq_getElem_cons hlt, List.take_append_drop]
  · rw [graft, List.modify_eq_take_cons_drop hlt]

end Node

/-! ### Calls around a call -/

namespace Call

variable {binding : String} {level : Nat}

theorem blocks_eq_join (calls : List Call) :
    blocks binding level calls = String.join (calls.map (block binding level)) := by
  induction calls with
  | nil => rfl
  | cons call rest ih => rw [blocks, ih, List.map_cons, String.join_cons]

theorem block_of_ne_nil (construct : Construct) (arguments : List Argument) {calls : List Call}
    (h : calls ≠ []) :
    block binding level ⟨construct, arguments, calls⟩
      = opening binding level construct arguments
        ++ String.join (calls.map (block binding (level + 1))) ++ closing level := by
  cases calls with
  | nil => exact absurd rfl h
  | cons child rest =>
    rw [← blocks_eq_join]
    simp only [block, blocks, opening, closing, String.append_assoc]

theorem targetsOfAll_eq_flatMap (calls : List Call) :
    targetsOfAll calls = calls.flatMap targets := by
  induction calls with
  | nil => rfl
  | cons call rest ih => rw [targetsOfAll, ih, List.flatMap_cons]

/-- Two calls are the same around calls that lie some levels further in. -/
structure SameAround (levels : Nat) (inner inner' call call' : Call) : Prop where
  block : ∀ binding level, ∃ before after,
    call.block binding level = before ++ inner.block binding (level + levels) ++ after ∧
    call'.block binding level = before ++ inner'.block binding (level + levels) ++ after
  targets : ∃ before after,
    call.targets = before ++ inner.targets ++ after ∧
    call'.targets = before ++ inner'.targets ++ after

variable {inner inner' child child' : Call} {levels : Nat}

theorem sameAround_self (inner inner' : Call) : SameAround 0 inner inner' inner inner' :=
  ⟨fun _ _ => ⟨"", "", by simp⟩, [], [], by simp⟩

theorem SameAround.below (h : SameAround levels inner inner' child child') (construct : Construct)
    (arguments : List Argument) (front back : List Call) :
    SameAround (levels + 1) inner inner' ⟨construct, arguments, front ++ child :: back⟩
      ⟨construct, arguments, front ++ child' :: back⟩ := by
  constructor
  · intro binding level
    obtain ⟨before, after, hchild, hchild'⟩ := h.block binding (level + 1)
    rw [block_of_ne_nil construct arguments (by simp),
      block_of_ne_nil construct arguments (by simp), List.map_append, List.map_append,
      List.map_cons, List.map_cons, String.join_append, String.join_append, String.join_cons,
      String.join_cons, hchild, hchild', Nat.add_right_comm level, Nat.add_assoc level]
    exact ⟨opening binding level construct arguments
        ++ String.join (front.map (Call.block binding (level + 1))) ++ before,
      after ++ String.join (back.map (Call.block binding (level + 1))) ++ closing level,
      by simp only [String.append_assoc], by simp only [String.append_assoc]⟩
  · obtain ⟨before, after, hchild, hchild'⟩ := h.targets
    rw [Call.targets, Call.targets, targetsOfAll_eq_flatMap, targetsOfAll_eq_flatMap,
      List.flatMap_append, List.flatMap_append, List.flatMap_cons, List.flatMap_cons, hchild,
      hchild']
    exact ⟨construct.target :: front.flatMap Call.targets ++ before,
      after ++ back.flatMap Call.targets, by simp, by simp⟩

theorem SameAround.targets_perm {call call' : Call}
    (h : SameAround levels inner inner' call call') (hinner : inner'.targets.Perm inner.targets) :
    call'.targets.Perm call.targets := by
  obtain ⟨before, after, hcall, hcall'⟩ := h.targets
  rw [hcall, hcall']
  exact (hinner.append_left before).append_right after

end Call

/-! ### Replacing a node -/

variable {registry : Registry}

namespace Node

variable {node new : Node}

theorem Resolves.of_at? : ∀ {address : List Nat} {root : Node}, root.Resolves registry →
    root.at? address = some node → node.Resolves registry := by
  intro address
  induction address with
  | nil =>
    intro root hroot h
    obtain rfl := Option.some.inj h
    exact hroot
  | cons index address ih =>
    intro root hroot h
    obtain ⟨front, child, back, hchildren, hchild, -⟩ := exists_of_at?_cons h
    have hmem : child ∈ root.children := by
      rw [hchildren]
      exact List.mem_append_right front List.mem_cons_self
    exact ih (hroot.of_mem_children child hmem) hchild

/-- **Replacing a node keeps everything around its call.** -/
theorem Resolves.graft (hnew : new.Resolves registry) :
    ∀ {address : List Nat} {root : Node}, root.Resolves registry →
      root.at? address = some node →
      (root.graft address new).Resolves registry ∧
      Call.SameAround address.length (node.call registry) (new.call registry)
        (root.call registry) ((root.graft address new).call registry) := by
  intro address
  induction address with
  | nil =>
    intro root hroot h
    obtain rfl := Option.some.inj h
    exact ⟨hnew, Call.sameAround_self _ _⟩
  | cons index address ih =>
    intro root hroot h
    obtain ⟨front, child, back, hchildren, hchild, hreplace⟩ := exists_of_at?_cons h
    have hall := hroot.of_mem_children
    rw [hchildren, List.forall_mem_append, List.forall_mem_cons] at hall
    obtain ⟨hfront, hhere, hback⟩ := hall
    obtain ⟨hhere', haround⟩ := ih hhere hchild
    -- The construct and the arguments of the root are those it had.
    obtain ⟨construct, arguments, hcall, hcalls⟩ := hroot.withChildren
    obtain ⟨hroot', hcall'⟩ := hcalls (front ++ child.graft address new :: back)
      (List.forall_mem_append.mpr ⟨hfront, List.forall_mem_cons.mpr ⟨hhere', hback⟩⟩)
    rw [hreplace, hcall', hcall, hchildren, List.map_append, List.map_append, List.map_cons,
      List.map_cons]
    exact ⟨hroot', haround.below construct arguments _ _⟩

end Node

/-! ### Permuting children -/

/-- Permuting the calls in a block keeps everything around their lines. -/
theorem Call.block_permuted {calls calls' : List Call} (h : calls'.Perm calls)
    (construct : Construct) (arguments : List Argument) (binding : String) (level : Nat) :
    ∃ before after,
      block binding level ⟨construct, arguments, calls⟩
        = before ++ String.join (calls.map (block binding (level + 1))) ++ after ∧
      block binding level ⟨construct, arguments, calls'⟩
        = before ++ String.join (calls'.map (block binding (level + 1))) ++ after := by
  by_cases hcalls : calls = []
  · subst hcalls
    obtain rfl := h.eq_nil
    exact ⟨block binding level ⟨construct, arguments, []⟩, "", by simp, by simp⟩
  · have hcalls' : calls' ≠ [] := fun hnil => hcalls (hnil ▸ h).symm.eq_nil
    exact ⟨_, _, block_of_ne_nil construct arguments hcalls,
      block_of_ne_nil construct arguments hcalls'⟩

theorem Call.targets_permuted {calls calls' : List Call} (h : calls'.Perm calls)
    (construct : Construct) (arguments : List Argument) :
    (targets ⟨construct, arguments, calls'⟩).Perm (targets ⟨construct, arguments, calls⟩) := by
  rw [targets, targets, targetsOfAll_eq_flatMap, targetsOfAll_eq_flatMap]
  exact (h.flatMap_right targets).cons construct.target

/-- **Permuting the children of a node permutes their lines and nothing else.**
If the view of a page is yielded, it is yielded again when the children of a
node anywhere in the tree are put into another order.  Both texts have the same
head, up to the line of the signature, and behind it they differ only in the
order in which the lines of these children come. -/
theorem Page.view_of_permuted {page : Page} {settings : Settings} {source : String}
    (h : page.view registry settings = .ok source) {address : List Nat} {node : Node}
    (hnode : page.root.at? address = some node) {children : List Node}
    (hperm : children.Perm node.children) :
    (∀ child ∈ node.children, child.Resolves registry) ∧
    ∃ before after,
      source = viewHead page.name settings (page.imported registry)
        ++ (before ++ String.join (node.children.map
          (Node.lines registry settings.binding (address.length + 2))) ++ after) ++ "\x7d\n" ∧
      ({ page with root := page.root.graft address { node with children := children } } :
        Page).view registry settings
        = .ok (viewHead page.name settings (page.imported registry)
          ++ (before ++ String.join (children.map
            (Node.lines registry settings.binding (address.length + 2))) ++ after)
          ++ "\x7d\n") := by
  obtain ⟨hroot, rfl⟩ := Page.view_eq_ok_iff.mp h
  -- The node with its children in the other order becomes the call with its calls in that order.
  have hchildren := (hroot.of_at? hnode).of_mem_children
  obtain ⟨construct, arguments, hcall, hcalls⟩ := (hroot.of_at? hnode).withChildren
  obtain ⟨hnew, hcall'⟩ := hcalls children fun child hmem => hchildren child (hperm.subset hmem)
  have hpermCalls := hperm.map (Node.call registry)
  obtain ⟨hroot', haround⟩ := hnew.graft hroot hnode
  rw [hcall, hcall'] at haround
  -- Its block stands in the block of the tree, and the lines of its children in that.
  obtain ⟨front, back, hblock, hblock'⟩ := haround.block settings.binding 1
  obtain ⟨before, after, hlines, hlines'⟩ := Call.block_permuted hpermCalls construct arguments
    settings.binding (1 + address.length)
  have hlevel : 1 + address.length + 1 = address.length + 2 := by omega
  rw [hlines, hlevel, List.map_map] at hblock
  rw [hlines', hlevel, List.map_map] at hblock'
  refine ⟨hchildren, front ++ before, after ++ back, ?_, Page.view_eq_ok_iff.mpr ⟨hroot', ?_⟩⟩
  · rw [Node.lines, hblock]
    simp only [String.append_assoc]
    rfl
  · have htargets := haround.targets_perm (Call.targets_permuted hpermCalls construct arguments)
    rw [hroot.targets_call, hroot'.targets_call] at htargets
    have hhead := viewHead_congr (fun target => (htargets.cons composable).mem_iff) page.name
      settings
    rw [Page.imported, Page.imported, hhead, Node.lines, hblock']
    simp only [String.append_assoc]
    rfl

/-- A shelf with a text and a button. -/
def shelf : Node :=
  ({ component := "Column" } : Node)
    |>.withChild (({ component := "Text" } : Node).withProp "text" "page.title")
    |>.withChild (({ component := "Button" } : Node).withEvent ⟨"onClick", []⟩)

/-- A page with a shelf below a text. -/
def shelfPage : Page where
  name := "shelf"
  root := ({ component := "Column" } : Node)
    |>.withChild { component := "Text" }
    |>.withChild shelf

/-- With its shelf in the other order, the page shows the button first. -/
theorem shelfPage_view_of_permuted :
    shelfPage.root.at? [1] = some shelf ∧ shelf.children.reverse.Perm shelf.children ∧
    ∃ before after,
      shelfPage.view .compose {}
        = .ok (viewHead "shelf" {} (shelfPage.imported .compose)
          ++ (before ++ ("            Text(text = viewModel.title)\n"
            ++ "            Button(onClick = \x7b\x7d)\n") ++ after) ++ "\x7d\n") ∧
      ({ shelfPage with
          root := shelfPage.root.graft [1] { shelf with children := shelf.children.reverse } } :
        Page).view .compose {}
        = .ok (viewHead "shelf" {} (shelfPage.imported .compose)
          ++ (before ++ ("            Button(onClick = \x7b\x7d)\n"
            ++ "            Text(text = viewModel.title)\n") ++ after) ++ "\x7d\n") := by
  have hshelf : shelfPage.root.at? [1] = some shelf := rfl
  have hlines : String.join (shelf.children.map (Node.lines .compose "viewModel" 3))
      = "            Text(text = viewModel.title)\n"
        ++ "            Button(onClick = \x7b\x7d)\n" := by
    decide +kernel
  have hlines' : String.join (shelf.children.reverse.map (Node.lines .compose "viewModel" 3))
      = "            Button(onClick = \x7b\x7d)\n"
        ++ "            Text(text = viewModel.title)\n" := by
    decide +kernel
  have hok : (shelfPage.view .compose {}).isOk = true := by decide +kernel
  cases h : shelfPage.view .compose {} with
  | error failure =>
    rw [h] at hok
    cases hok
  | ok source =>
    obtain ⟨-, before, after, hsource, hview⟩ :=
      Page.view_of_permuted h hshelf (List.reverse_perm shelf.children)
    rw [← hlines, ← hlines']
    exact ⟨hshelf, List.reverse_perm _, before, after, congrArg Except.ok hsource, hview⟩

end Pagewright
