/-
Pages built step by step.

* `PageDraft.finish` — the page of a draft; a draft without a tree shows an empty `Column`.
-/
import Pagewright.Page.Basic

namespace Pagewright

/-- A page under construction. -/
structure PageDraft where
  name : String
  state : PageState := {}
  root? : Option Node := none
  deriving Inhabited

namespace PageDraft

/-- Declares one more field. -/
def withField (draft : PageDraft) (name : String) (kind : FieldKind) (initial : String) :
    PageDraft :=
  { draft with state.fields := draft.state.fields ++ [⟨name, kind, initial⟩] }

/-- Declares one more method. -/
def withMethod (draft : PageDraft) (name body : String) : PageDraft :=
  { draft with state.methods := draft.state.methods ++ [⟨name, body⟩] }

/-- Sets what the page shows. -/
def withRoot (draft : PageDraft) (root : Node) : PageDraft :=
  { draft with root? := some root }

/-- The finished page. -/
def finish (draft : PageDraft) : Page :=
  ⟨draft.name, draft.state, draft.root?.getD { component := "Column" }⟩

end PageDraft

end Pagewright
