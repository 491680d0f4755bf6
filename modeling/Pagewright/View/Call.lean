/-
The calls that make up a view.

* `Call.block` — the lines of a call and the calls inside it, at a level;
* `Call.targets` — what the calls need to import.
-/
import Pagewright.Kotlin.Layout
import Pagewright.Registry.Basic
import Pagewright.Scope

namespace Pagewright

/-- What a parameter is given. -/
inductive ArgumentValue
  /-- Expression text, which may refer to the page. -/
  | expression (text : String)
  /-- A callback that calls some methods of the state holder, in order. -/
  | callback (methods : List String)
  deriving DecidableEq, Repr

/-- A named argument. -/
structure Argument where
  parameter : String
  value : ArgumentValue
  deriving DecidableEq, Repr

/-- A call of a construct, with the calls in its trailing block. -/
structure Call where
  construct : Construct
  arguments : List Argument
  children : List Call

/-- The source text of a value in a call at a level. -/
def ArgumentValue.source (binding : String) (level : Nat) : ArgumentValue → String
  | .expression text => bindPageScope text binding
  | .callback [] => "\x7b\x7d"
  | .callback methods =>
    "\x7b\n"
      ++ String.join (methods.map fun method =>
        Kotlin.indent (level + 1) ++ binding ++ "." ++ method ++ "()\n")
      ++ Kotlin.indent level ++ "\x7d"

/-- The source text of an argument in a call at a level. -/
def Argument.source (binding : String) (level : Nat) (argument : Argument) : String :=
  argument.parameter ++ " = " ++ argument.value.source binding level

/-- The arguments of a call as they stand between parentheses. -/
def argumentList (binding : String) (level : Nat) (arguments : List Argument) : String :=
  "(" ++ ", ".intercalate (arguments.map (Argument.source binding level)) ++ ")"

namespace Call

mutual

/-- The lines of a call. -/
def block (binding : String) (level : Nat) : Call → String
  | ⟨construct, arguments, []⟩ =>
    Kotlin.indent level ++ construct.simpleName ++ argumentList binding level arguments ++ "\n"
  | ⟨construct, arguments, child :: rest⟩ =>
    Kotlin.indent level ++ construct.simpleName
      ++ (if arguments.isEmpty then "" else argumentList binding level arguments) ++ " \x7b\n"
      ++ block binding (level + 1) child ++ blocks binding (level + 1) rest
      ++ Kotlin.indent level ++ "\x7d\n"

/-- The lines of some calls. -/
def blocks (binding : String) (level : Nat) : List Call → String
  | [] => ""
  | call :: rest => block binding level call ++ blocks binding level rest

end

mutual

/-- The targets of a call and of those inside it. -/
def targets : Call → List String
  | ⟨construct, _, children⟩ => construct.target :: targetsOfAll children

/-- The targets of some calls. -/
def targetsOfAll : List Call → List String
  | [] => []
  | call :: rest => call.targets ++ targetsOfAll rest

end

end Call

end Pagewright
