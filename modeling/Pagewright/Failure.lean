/-
Why a page is not generated.

* `Failure.message` — the wording of every cause.
-/
import Pagewright.Json.Fault
import Pagewright.Page.NodePath
import Pagewright.Registry.Basic
import Pagewright.Storage.FileSystem

namespace Pagewright

/-- Why a document in a file cannot be used. -/
inductive DocumentError
  | malformed (diagnostic : Json.Diagnostic)
  | unreadable (refusal : StorageError)
  deriving DecidableEq, Repr

/-- The wording of what is wrong with a document. -/
def DocumentError.message : DocumentError → String
  | .malformed diagnostic => diagnostic.message
  | .unreadable refusal => refusal.message

/-- Why a page or a table of a project is not accepted. -/
inductive Failure
  | unknownComponent (name : String) (path : NodePath)
  | unsupportedEvent (event : String) (path : NodePath)
  | unsupportedAction (action : String) (path : NodePath)
  | unsupportedFieldType (field kind : String)
  | unknownActionTarget (action : String) (path : NodePath)
  | unknownScopeReference (member : String) (path : NodePath)
  | duplicateField (name : String)
  | duplicateMethod (name : String)
  | duplicateArgument (name : String) (path : NodePath)
  | duplicatePage (name : String)
  | unsupportedRegistryVersion (found : Nat)
  | document (file : String) (error : DocumentError)
  | storage (refusal : StorageError)
  | text (diagnostic : Json.Diagnostic)
  deriving DecidableEq, Repr

namespace Failure

/-- The wording of a failure. -/
def message : Failure → String
  | .unknownComponent name path => "unknown component `" ++ name ++ "` at " ++ path.text
  | .unsupportedEvent event path => "unsupported event `" ++ event ++ "` at " ++ path.text
  | .unsupportedAction action path => "unsupported action type `" ++ action ++ "` at " ++ path.text
  | .unsupportedFieldType field kind => "unsupported type `" ++ kind ++ "` for field `" ++ field ++ "`"
  | .unknownActionTarget action path =>
    "action `" ++ action ++ "` at " ++ path.text ++ " does not name a declared method"
  | .unknownScopeReference member path =>
    "`page." ++ member ++ "` at " ++ path.text ++ " does not name a declared field or method"
  | .duplicateField name => "duplicate field `" ++ name ++ "`"
  | .duplicateMethod name => "duplicate method `" ++ name ++ "`"
  | .duplicateArgument name path =>
    "argument `" ++ name ++ "` is bound more than once at " ++ path.text
  | .duplicatePage name =>
    "page `" ++ name ++ "` generates the same files as an earlier page in this batch"
  | .unsupportedRegistryVersion found =>
    "registry version " ++ toString found ++ " is not supported (this build supports up to version "
      ++ toString Registry.currentVersion ++ ")"
  | .document file error => "parse error in " ++ file ++ ": " ++ error.message
  | .storage refusal => "I/O error: " ++ refusal.message
  | .text diagnostic => "JSON error: " ++ diagnostic.message

end Failure

end Pagewright
