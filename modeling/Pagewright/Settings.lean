/-
What a project may choose about the generated sources.
-/
namespace Pagewright

/-- Options of generation. -/
structure Settings where
  /-- The name of the state holder inside a view. -/
  binding : String := "viewModel"
  /-- The package that the sources declare. -/
  package? : Option String := none
  /-- Whether references and actions have to name declared members. -/
  strict : Bool := false
  deriving DecidableEq, Repr

end Pagewright
