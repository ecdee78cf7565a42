import ResponseTypes.Target

/-!
# Options

What a user may choose about compilation and generation.
-/

set_option autoImplicit false

namespace ResponseTypes

/-- The options of compilation and generation. -/
structure Options where
  /-- A custom scalar has the type of unknown values instead of a type of its own name. -/
  passesCustomScalars : Bool := false
  /-- What is put before the name of a custom scalar. -/
  customScalarPrefix : String := ""
  /-- The fields of a fragment are merged into the selections that use it; otherwise the declaration
  of the fragment is referred to. -/
  mergesFragments : Bool := true
  /-- Every selection set asks for the name of its type. -/
  addsTypename : Bool := false
  target : Target := .flow
deriving DecidableEq, Repr

/-- The syntax of the target that was chosen. -/
def Options.targetSyntax (o : Options) : Syntax :=
  o.target.syntaxOf

end ResponseTypes
