/-
References to a scope inside opaque text.

Property values refer to the page with `page.` and method bodies to themselves with `this.`.
Neither text is read as an expression: only the places where the scope is written are found, from
left to right and without overlap, together with the word that follows each of them.

* `ScopedText.members` — the words, in order;
* `ScopedText.render` — the text with every such place replaced by a binding and a dot, or dropped.
-/
import Pagewright.Text.Alphanumeric

namespace Pagewright

/-- What property values write before a member of the page. -/
def pageScope : String := "page."

/-- What method bodies write before a member of the page. -/
def selfScope : String := "this."

/-- A piece of a text: a character, or one place where the scope is written.  The member that
follows such a place is noted there, and its characters come next in the text. -/
inductive ScopePiece
  | plain (c : Char)
  | reference (member : List Char)
  deriving DecidableEq, Repr

/-- The pieces of a text after `skip` of its characters, which belong to a place already found. -/
def scopePieces (scope : List Char) : (skip : Nat) → List Char → List ScopePiece
  | _, [] => []
  | skip + 1, _ :: text => scopePieces scope skip text
  | 0, c :: text =>
    if !scope.isEmpty && scope.isPrefixOf (c :: text) then
      .reference (((c :: text).drop scope.length).takeWhile Text.isWordCharacter)
        :: scopePieces scope (scope.length - 1) text
    else .plain c :: scopePieces scope 0 text

/-- A text in which the places of a scope are marked. -/
structure ScopedText where
  pieces : List ScopePiece
  deriving DecidableEq, Repr

namespace ScopedText

/-- Marks a scope in a text.  The empty scope is written nowhere. -/
def read (text scope : String) : ScopedText :=
  ⟨scopePieces scope.toList 0 text.toList⟩

/-- The member that a piece names. -/
def memberOf : ScopePiece → Option String
  | .plain _ => none
  | .reference member => some (String.ofList member)

/-- The members named after the scope, in order; one may be empty. -/
def members (text : ScopedText) : List String :=
  text.pieces.filterMap memberOf

/-- The characters of a piece when the scope is written as `scope`. -/
def renderPiece (scope : List Char) : ScopePiece → List Char
  | .plain c => [c]
  | .reference _ => scope

/-- The text with a binding in place of the scope, or without the scope. -/
def render (text : ScopedText) (binding : Option String) : String :=
  let scope := match binding with
    | some binding => binding.toList ++ ['.']
    | none => []
  String.ofList (text.pieces.flatMap (renderPiece scope))

end ScopedText

/-- A property value with the page bound to a name. -/
def bindPageScope (value binding : String) : String :=
  (ScopedText.read value pageScope).render (some binding)

/-- A method body without references to itself. -/
def dropSelfScope (body : String) : String :=
  (ScopedText.read body selfScope).render none

end Pagewright
